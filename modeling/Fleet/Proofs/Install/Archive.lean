import Fleet.Proofs.Install.Reading
import Fleet.Proofs.Text.Base64

/-!
# The archive in the install script

A body that unpacks an archive holds the archive as a here-document, in Base64.  The shell takes
such a document up to the first line that is its word, and it expands what is in it.  What Base64
writes holds nothing that is expanded and is never the word, so the archive comes out of the script
as it went in, and the script goes on with the entrypoint.

## Main definitions

- `Shell.hereDocument?`: the first here-document of a word in a text
- `Shell.HereDocument.text`: the text around a here-document
- `Install.archiveDocument`: the document that holds an archive

## Main statements

- `Shell.hereDocument?_text`: a proper document is found in the text that holds it
- `Install.archiveDocument_isProper`: that of an archive is proper, whatever the archive is
- `Install.archive_survives`: what a shell finds in the script
-/

namespace Fleet

namespace Text.Shell

/-! ## §1 Here-documents -/

/-- A here-document in a text: the lines before it, the line that opens it, its own lines, and the
text behind the line that ends it. -/
structure HereDocument where
  before : List (List Char)
  opening : List Char
  body : List (List Char)
  rest : List Char
deriving DecidableEq, Repr

/-- Whether a line ends by opening a document of the word. -/
def opens (word line : List Char) : Bool :=
  ('<' :: '<' :: word).isSuffixOf line

/-- The first here-document of a word. The first line that ends by opening one opens it, and the
first line after that that is the word ends it. -/
def hereDocument? (word text : List Char) : Option HereDocument :=
  let lines := text.splitOn '\n'
  match lines.dropWhile (!opens word ·) with
  | [] => none
  | opening :: later =>
    match later.dropWhile (· != word) with
    | [] => none
    | _ :: rest => some {
        before := lines.takeWhile (!opens word ·)
        opening
        body := later.takeWhile (· != word)
        rest := ['\n'].intercalate rest }

/-- Some lines with their ends. -/
def ended (lines : List (List Char)) : List Char :=
  lines.flatMap (· ++ ['\n'])

/-- The text that holds a document of the word. -/
def HereDocument.text (word : List Char) (d : HereDocument) : List Char :=
  ended (d.before ++ d.opening :: d.body ++ [word]) ++ d.rest

/-- A document of the word whose lines are lines, that no earlier line opens, and that does not
hold its word. -/
structure HereDocument.IsProper (word : List Char) (d : HereDocument) : Prop where
  line_of_mem : ∀ line ∈ d.before ++ d.opening :: d.body ++ [word], '\n' ∉ line
  not_opens : ∀ line ∈ d.before, opens word line = false
  opens_opening : opens word d.opening = true
  ne_word : ∀ line ∈ d.body, line ≠ word

/-- A text is cut into its lines at their ends. -/
theorem splitOn_ended {lines : List (List Char)} (h : ∀ line ∈ lines, '\n' ∉ line)
    (rest : List Char) : (ended lines ++ rest).splitOn '\n' = lines ++ rest.splitOn '\n' := by
  induction lines with
  | nil => rfl
  | cons line lines ih =>
    obtain ⟨hline, hlines⟩ := List.forall_mem_cons.mp h
    have hcons : ended (line :: lines) ++ rest = line ++ '\n' :: (ended lines ++ rest) := by
      simp [ended]
    rw [hcons, List.splitOn_append_cons_self_of_not_mem hline, ih hlines, List.cons_append]

/-- A proper document is found in the text that holds it. -/
theorem hereDocument?_text {word : List Char} {d : HereDocument} (h : d.IsProper word) :
    hereDocument? word (d.text word) = some d := by
  have hlines : (d.text word).splitOn '\n' =
      d.before ++ d.opening :: (d.body ++ word :: d.rest.splitOn '\n') := by
    rw [HereDocument.text, splitOn_ended h.line_of_mem]
    simp
  have hbefore : ∀ line ∈ d.before, (!opens word line) = true := by
    intro line hline
    simp [h.not_opens line hline]
  have hbody : ∀ line ∈ d.body, (line != word) = true := by
    intro line hline
    simp [h.ne_word line hline]
  -- neither search goes on beyond the line that it looks for
  have hopening (p : List (List Char)) :
      (d.opening :: p).dropWhile (!opens word ·) = d.opening :: p ∧
        (d.opening :: p).takeWhile (!opens word ·) = [] := by
    simp [h.opens_opening]
  have hword (p : List (List Char)) :
      (word :: p).dropWhile (· != word) = word :: p ∧
        (word :: p).takeWhile (· != word) = [] := by
    simp
  simp only [hereDocument?, hlines, List.dropWhile_append_of_pos hbefore,
    List.takeWhile_append_of_pos hbefore, List.dropWhile_append_of_pos hbody,
    List.takeWhile_append_of_pos hbody, hopening, hword, List.append_nil,
    List.intercalate_splitOn]

end Text.Shell

namespace Install

open Text Text.Shell

/-! ## §2 The document of an archive -/

/-- The word of the document that holds an archive. -/
def archiveWord : List Char :=
  "EOM".toList

/-- The document that holds an archive, and the entrypoint behind it. -/
def archiveDocument (tarball : List UInt8) (entrypoint : String) : HereDocument where
  before := [[]]
  opening := "(base64 --decode | tar --extract --gzip ) <<EOM".toList
  body := [Base64.encode tarball]
  rest := entrypoint.toList ++ ['\n']

theorem text_archiveDocument (tarball : List UInt8) (entrypoint : String) :
    (archiveDocument tarball entrypoint).text archiveWord =
      (embedTarball tarball entrypoint).toList := by
  -- the fixed parts of the script are the lines around the archive
  have hopening : "\n(base64 --decode | tar --extract --gzip ) <<EOM\n".toList =
      '\n' :: (archiveDocument [] "").opening ++ ['\n'] := by
    decide
  have hend : "EOM\n".toList = archiveWord ++ ['\n'] := by
    decide
  have hline : "\n".toList = ['\n'] := by
    decide
  unfold HereDocument.text ended archiveDocument embedTarball
  generalize Base64.encode tarball = encoded
  have hencoded : (String.ofList encoded).toList = encoded := String.toList_ofList
  simp only [String.toList_append, hopening, hencoded, hline, hend]
  simp [archiveDocument]

/-- What Base64 writes holds neither an end of line nor anything that a shell expands. -/
theorem not_mem_encode {c : Char} (h : c ∈ '\n' :: specialsWithin) (bytes : List UInt8) :
    c ∉ Base64.encode bytes := by
  -- a test of the listed characters, and not of all characters there are
  have hall : ('\n' :: specialsWithin).all
      (fun c => decide (c ≠ Base64.pad ∧ Base64.sextet? c = none)) = true := by
    decide
  obtain ⟨hpad, hvalue⟩ := of_decide_eq_true (List.all_eq_true.mp hall c h)
  intro hmem
  rcases Base64.of_mem_encode hmem with rfl | hletter
  · exact hpad rfl
  · rw [hvalue] at hletter
    cases hletter

/-- It is not the word either, which is no group of four. -/
theorem encode_ne_archiveWord (bytes : List UInt8) : Base64.encode bytes ≠ archiveWord := by
  intro hequal
  have hlength := Base64.length_encode bytes
  have hthree : archiveWord.length = 3 := by decide
  rw [hequal, hthree] at hlength
  omega

theorem archiveDocument_isProper (tarball : List UInt8) (entrypoint : String) :
    (archiveDocument tarball entrypoint).IsProper archiveWord where
  line_of_mem := by
    intro line hline
    have hencoded : '\n' ∉ Base64.encode tarball := not_mem_encode List.mem_cons_self tarball
    simp only [archiveDocument, List.cons_append, List.nil_append, List.mem_cons,
      List.not_mem_nil, or_false] at hline
    rcases hline with rfl | rfl | rfl | rfl
    · decide
    · decide
    · exact hencoded
    · decide
  not_opens := by
    intro line hline
    obtain rfl := List.mem_singleton.mp hline
    decide
  opens_opening := by
    show opens archiveWord (archiveDocument [] "").opening = true
    decide
  ne_word := by
    intro line hline
    obtain rfl := List.mem_singleton.mp hline
    exact encode_ne_archiveWord tarball

/-- What a shell finds in the body that unpacks an archive: a document that holds the archive and
nothing that is expanded, and behind it the entrypoint. -/
theorem archive_survives (tarball : List UInt8) (entrypoint : String) :
    let script := (embedTarball tarball entrypoint).toList
    ∃ document : HereDocument, hereDocument? archiveWord script = some document ∧
      -- the line that ends it is the one that the script has for that
      script = document.text archiveWord ∧ document.body = [Base64.encode tarball] ∧
      (∀ line ∈ document.body, line ≠ archiveWord ∧ ∀ c ∈ line, c ∉ specialsWithin) ∧
      Base64.decode? document.body.flatten = some tarball ∧
      document.rest = entrypoint.toList ++ ['\n'] := by
  intro script
  have htext : (archiveDocument tarball entrypoint).text archiveWord = script :=
    text_archiveDocument tarball entrypoint
  refine ⟨archiveDocument tarball entrypoint, ?_, htext.symm, rfl, ?_, ?_, rfl⟩
  · rw [← htext]
    exact hereDocument?_text (archiveDocument_isProper tarball entrypoint)
  · intro line hline
    obtain rfl := List.mem_singleton.mp hline
    refine ⟨encode_ne_archiveWord tarball, ?_⟩
    intro c hc hspecial
    exact not_mem_encode (List.mem_cons_of_mem _ hspecial) tarball hc
  · have hbody : (archiveDocument tarball entrypoint).body.flatten = Base64.encode tarball := by
      simp [archiveDocument]
    rw [hbody]
    exact Base64.decode?_encode tarball

-- an empty archive leaves an empty line, and the entrypoint may open a document of its own
example :
    hereDocument? archiveWord (embedTarball [] "cat <<EOM\nEOM").toList =
      some (archiveDocument [] "cat <<EOM\nEOM") := by
  decide +kernel

end Install

end Fleet
