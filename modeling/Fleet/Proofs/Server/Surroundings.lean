import Fleet.Proofs.Server.Course

/-!
# Servers in changing surroundings

A server is not alone in the world.  Between two of its moves others use the network and the tokens,
and the clocks go on, so each move may come upon surroundings that the moves before it did not
leave.  Only the journal is the server's own.

## Main definitions

- `Run.within`: a run in other surroundings
- `Run.amid`: the run after some moves, each of them in surroundings of its own

## Main statements

- `Run.amid_sound`, `Run.amid_onward`: what every course keeps, whatever the surroundings are
-/

namespace Fleet

open World

namespace Run

variable {r : Run}

/-- The run in other surroundings: all but the journal is as in the given world. -/
def within (r : Run) (surroundings : World) : Run :=
  { r with world := { surroundings with journal := r.world.journal } }

@[simp] theorem within_server (r : Run) (surroundings : World) :
    (r.within surroundings).server = r.server := rfl

@[simp] theorem within_network (r : Run) (surroundings : World) :
    (r.within surroundings).world.network = surroundings.network := rfl

@[simp] theorem within_tokens (r : Run) (surroundings : World) :
    (r.within surroundings).world.tokens = surroundings.tokens := rfl

@[simp] theorem within_clock (r : Run) (surroundings : World) :
    (r.within surroundings).world.clock = surroundings.clock := rfl

theorem within_sound (hr : r.Sound) (surroundings : World) : (r.within surroundings).Sound :=
  hr.of_world _

/-- Other surroundings alone are no event. -/
theorem within_onward {P : Event → Prop} (r : Run) (surroundings : World) :
    Onward P r (r.within surroundings) :=
  onward_world (.of_journal_eq rfl)

/-- The run after some moves, each of them in surroundings of its own. -/
def amid (r : Run) (moves : List (World × Move)) : Run :=
  moves.foldl (fun r (surroundings, m) => (r.within surroundings).move m) r

@[simp] theorem amid_nil (r : Run) : r.amid [] = r := rfl

@[simp] theorem amid_cons (r : Run) (surroundings : World) (m : Move)
    (moves : List (World × Move)) :
    r.amid ((surroundings, m) :: moves) = ((r.within surroundings).move m).amid moves := rfl

theorem amid_append (r : Run) (moves moves' : List (World × Move)) :
    r.amid (moves ++ moves') = (r.amid moves).amid moves' :=
  List.foldl_append

theorem amid_sound (hr : r.Sound) (moves : List (World × Move)) : (r.amid moves).Sound := by
  induction moves generalizing r with
  | nil => exact hr
  | cons move moves ih => exact ih (move_sound (within_sound hr move.1) move.2)

theorem amid_onward (r : Run) (moves : List (World × Move)) :
    Onward (fun _ => True) r (r.amid moves) := by
  induction moves generalizing r with
  | nil => exact .refl r
  | cons move moves ih =>
    obtain ⟨surroundings, m⟩ := move
    have hmove : Onward (fun _ => True) (r.within surroundings) ((r.within surroundings).move m) :=
      (move_onward _ m).mono fun _ _ => trivial
    exact ((r.within_onward surroundings).trans hmove).trans (ih _)

/-- Every event of a course was permitted by the run before its move, in the surroundings of it. -/
theorem mem_since_amid {moves : List (World × Move)} {e : Event}
    (he : e ∈ r.world.since (r.amid moves).world) :
    ∃ before surroundings m rest, moves = before ++ (surroundings, m) :: rest ∧
      ((r.amid before).within surroundings).Permits m e := by
  induction moves generalizing r with
  | nil =>
    rw [amid_nil, since_self] at he
    cases he
  | cons move moves ih =>
    obtain ⟨surroundings, m⟩ := move
    have hwithin : r.world.Extends (fun _ => False) (r.within surroundings).world :=
      .of_journal_eq rfl
    have hmove := (move_onward (r.within surroundings) m).journal
    have hfirst : r.world.Extends (fun _ => True) ((r.within surroundings).move m).world :=
      (hwithin.mono fun _ _ => trivial).trans (hmove.mono fun _ _ => trivial)
    rw [amid_cons, since_trans hfirst (amid_onward _ moves).journal] at he
    rcases List.mem_append.mp he with he | he
    · rw [since_trans hwithin hmove] at he
      rcases List.mem_append.mp he with he | he
      · exact (hwithin.mem_since he).elim
      · exact ⟨[], surroundings, m, moves, rfl, hmove.mem_since he⟩
    · obtain ⟨before, surroundings', m', rest, rfl, hpermits⟩ := ih he
      exact ⟨(surroundings, m) :: before, surroundings', m', rest, rfl, hpermits⟩

end Run

end Fleet
