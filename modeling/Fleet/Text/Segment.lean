/-!
# Segments of a path

Resource paths are rows of segments between slashes.  A reader of such paths passes a fixed word
or takes one segment.  A rule for URLs asks instead whether a part occurs anywhere in them.
-/

namespace Fleet.Text

/-- What follows the given word, if the text begins with it. -/
def after? (word : String) (cs : List Char) : Option (List Char) :=
  if word.toList.isPrefixOf cs then some (cs.drop word.toList.length) else none

/-- The segment at the front, which must not be empty, and what follows it. -/
def segment? (cs : List Char) : Option (List Char × List Char) :=
  match cs.takeWhile (· != '/') with
  | [] => none
  | front => some (front, cs.dropWhile (· != '/'))

/-- Whether a row of characters occurs in another. -/
def occursIn (part : List Char) : List Char → Bool
  | [] => part.isEmpty
  | c :: rest => part.isPrefixOf (c :: rest) || occursIn part rest

/-- The text without the slashes at its end. -/
def dropTrailingSlashes (s : String) : String :=
  String.ofList (s.toList.reverse.dropWhile (· == '/')).reverse

/-- To occur is to stand between two other parts. -/
theorem occursIn_iff {part cs : List Char} :
    occursIn part cs = true ↔ ∃ before after, cs = before ++ part ++ after := by
  induction cs with
  | nil =>
    simp only [occursIn, List.isEmpty_iff]
    constructor
    · rintro rfl
      exact ⟨[], [], rfl⟩
    · rintro ⟨before, after, h⟩
      simp only [List.nil_eq, List.append_eq_nil_iff] at h
      exact h.1.2
  | cons c rest ih =>
    simp only [occursIn, Bool.or_eq_true, ih, List.isPrefixOf_iff_prefix]
    constructor
    · rintro (⟨after, h⟩ | ⟨before, after, rfl⟩)
      · exact ⟨[], after, h.symm⟩
      · exact ⟨c :: before, after, rfl⟩
    · rintro ⟨before, after, h⟩
      cases before with
      | nil => exact .inl ⟨after, h.symm⟩
      | cons b before =>
        simp only [List.cons_append, List.cons.injEq] at h
        exact .inr ⟨before, after, h.2⟩

/-- Passing a word takes exactly that word away. -/
theorem after?_eq_some {word : String} {cs rest : List Char} :
    after? word cs = some rest ↔ cs = word.toList ++ rest := by
  unfold after?
  constructor
  · split
    · rename_i h
      obtain ⟨tail, rfl⟩ := List.isPrefixOf_iff_prefix.1 h
      simp
    · simp
  · rintro rfl
    simp

/-- A segment is not empty, has no slash, and ends at a slash or at the end. -/
theorem segment?_eq_some {cs front rest : List Char} (h : segment? cs = some (front, rest)) :
    cs = front ++ rest ∧ front ≠ [] ∧ '/' ∉ front := by
  unfold segment? at h
  split at h
  · simp at h
  · rename_i front' hf
    simp only [Option.some.injEq, Prod.mk.injEq] at h
    obtain ⟨rfl, rfl⟩ := h
    refine ⟨(List.takeWhile_append_dropWhile ..).symm, hf, fun hm => ?_⟩
    have := List.all_takeWhile (p := (· != '/')) (l := cs)
    rw [List.all_eq_true] at this
    simpa using this _ hm

end Fleet.Text
