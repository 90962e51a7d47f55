import Fleet.Proofs.Server.Changes
import Fleet.Server.Progress

/-!
# Listening to an installation

Whoever listens to an installation looks at its stream at moments of its own choice, also between
the two writes of a final state: the state is set first and the stream is closed after it.  A
session is such a course of beats, of which some write to the stream and the others are looks.

## Main definitions

- `Beat`, `InstallState.beats`: a write or a look, and the writes of an accepted state
- `Session`, `Session.look`: a listener, what it has been told, and one look of it
- `Beat.Lawful`: the writes can come from accepted states
- `Beat.Attentive`: no state is missed for want of a look

## Main statements

- `Session.Sound.beat`: what every beat keeps
- `Session.told_after`: what a listener is told of, from any moment on
- `Session.exists_ended_of_closed`: the last three looks
-/

namespace Fleet

/-! ## §1 Beats -/

/-- What may happen while somebody listens. -/
inductive Beat where
  | set (state : InstallState)
  | close
  /-- the listener looks -/
  | look
deriving DecidableEq

/-- The writes of an accepted state. -/
def InstallState.beats (s : InstallState) : List Beat :=
  .set s :: if s.isFinal then [.close] else []

namespace Beat

def isWrite : Beat → Bool
  | .look => false
  | _ => true

/-- The state that a beat sets. -/
def state? : Beat → Option InstallState
  | .set s => some s
  | _ => none

/-- The stream after a beat. -/
def write (stream : ValueStream InstallState) : Beat → ValueStream InstallState
  | .set s => (stream.set? s).getD stream
  | .close => stream.close
  | .look => stream

/-- States are set upwards on the open stream, and only a final one is followed by closing it. -/
inductive Lawful : ValueStream InstallState → List Beat → Prop
  | nil (stream : ValueStream InstallState) : Lawful stream []
  | set {stream : ValueStream InstallState} {s : InstallState} {beats : List Beat}
      (hopen : stream.closed = false) (hgoing : stream.value.isFinal = false)
      (hlt : stream.value < s) (h : Lawful (write stream (.set s)) beats) :
      Lawful stream (.set s :: beats)
  | close {stream : ValueStream InstallState} {beats : List Beat}
      (hfinal : stream.value.isFinal = true) (h : Lawful stream.close beats) :
      Lawful stream (.close :: beats)
  | look {stream : ValueStream InstallState} {beats : List Beat} (h : Lawful stream beats) :
      Lawful stream (.look :: beats)

/-- Before a state is set, and at the end, the listener has looked at the state before it. -/
def Attentive : (unseen : Bool) → List Beat → Prop
  | unseen, [] => unseen = false
  | _, .look :: beats => Attentive false beats
  | unseen, .close :: beats => Attentive unseen beats
  | unseen, .set _ :: beats => unseen = false ∧ Attentive true beats

theorem write_set_of_open {stream : ValueStream InstallState} (h : stream.closed = false)
    (s : InstallState) :
    write stream (.set s) = { stream with value := s, version := stream.version + 1 } := by
  simp [write, ValueStream.set?_of_open h]

theorem attentive_beats_append {s : InstallState} {beats : List Beat} :
    Attentive false (s.beats ++ beats) ↔ Attentive true beats := by
  cases hs : s.isFinal <;> simp [InstallState.beats, hs, Attentive]

theorem filter_isWrite_beats (s : InstallState) : s.beats.filter isWrite = s.beats := by
  cases hs : s.isFinal <;> simp [InstallState.beats, hs, isWrite]

theorem filterMap_state?_beats (s : InstallState) : s.beats.filterMap state? = [s] := by
  cases hs : s.isFinal <;> simp [InstallState.beats, hs, state?]

/-- The writes of some states set these states. -/
theorem filterMap_state?_flatMap (states : List InstallState) :
    (states.flatMap InstallState.beats).filterMap state? = states := by
  induction states with
  | nil => rfl
  | cons s states ih =>
    rw [List.flatMap_cons, List.filterMap_append, filterMap_state?_beats, ih]
    rfl

/-- Looks set no state. -/
theorem filterMap_state?_filter (beats : List Beat) :
    (beats.filter isWrite).filterMap state? = beats.filterMap state? := by
  induction beats with
  | nil => rfl
  | cons b beats ih =>
    cases b with
    | set s => exact congrArg (s :: ·) ih
    | close | look => exact ih

namespace Lawful

variable {stream : ValueStream InstallState} {beats beats' : List Beat}

theorem of_append (h : Lawful stream (beats ++ beats')) : Lawful stream beats := by
  induction beats generalizing stream with
  | nil => exact .nil stream
  | cons b beats ih =>
    cases h with
    | set hopen hgoing hlt h => exact .set hopen hgoing hlt (ih h)
    | close hfinal h => exact .close hfinal (ih h)
    | look h => exact .look (ih h)

/-- Looks write nothing. -/
theorem of_writes (h : Lawful stream (beats.filter isWrite)) : Lawful stream beats := by
  induction beats generalizing stream with
  | nil => exact .nil stream
  | cons b beats ih =>
    cases b with
    | look => exact .look (ih h)
    | set s =>
      cases h with
      | set hopen hgoing hlt h => exact .set hopen hgoing hlt (ih h)
    | close =>
      cases h with
      | close hfinal h => exact .close hfinal (ih h)

theorem of_append_right (h : Lawful stream (beats ++ beats')) :
    Lawful (beats.foldl write stream) beats' := by
  induction beats generalizing stream with
  | nil => exact h
  | cons b beats ih =>
    cases h with
    | set _ _ _ h | close _ h | look h => exact ih h

/-- After a final state nothing is set any more. -/
theorem states_eq_nil (h : Lawful stream beats) (hfinal : stream.value.isFinal = true) :
    beats.filterMap state? = [] := by
  induction h with
  | nil => rfl
  | set hopen hgoing => rw [hfinal] at hgoing; cases hgoing
  | close _ _ ih => exact ih hfinal
  | look _ ih => exact ih hfinal

theorem value_eq_of_isFinal (h : Lawful stream beats) (hfinal : stream.value.isFinal = true) :
    (beats.foldl write stream).value = stream.value := by
  induction h with
  | nil => rfl
  | set hopen hgoing => exact nomatch hgoing.symm.trans hfinal
  | close _ _ ih => exact ih hfinal
  | look _ ih => exact ih hfinal

end Lawful

end Beat

/-- The writes of an ascent are lawful, and they lead to its last state with a new version for each
of its states. -/
theorem InstallState.Ascent.beats {s t : InstallState} {ts : List InstallState}
    (h : InstallState.Ascent s ts t) {stream : ValueStream InstallState} (hs : stream.value = s)
    (hc : stream.closed = s.isFinal) :
    Beat.Lawful stream (ts.flatMap InstallState.beats) ∧
      (ts.flatMap InstallState.beats).foldl Beat.write stream =
        { value := t, version := stream.version + ts.length, closed := t.isFinal } := by
  -- along the ascent: only its last state can be final, so the stream is open until then
  induction h generalizing stream with
  | nil =>
    subst hs
    exact ⟨.nil stream, by rw [← hc]; rfl⟩
  | @cons s u t ts hgoing hlt ht ih =>
    subst hs
    have hopen : stream.closed = false := hc.trans hgoing
    have hset := Beat.write_set_of_open hopen u
    rw [List.flatMap_cons, InstallState.beats]
    cases hu : u.isFinal with
    | true =>
      -- the stream is closed at once, and the ascent is at its end
      obtain ⟨rfl, rfl⟩ := ht.eq_nil_of_isFinal hu
      refine ⟨.set hopen hgoing hlt (.close (by rw [hset]; exact hu) (.nil _)), ?_⟩
      simp only [List.flatMap_nil, List.append_nil, if_true, List.foldl_cons, List.foldl_nil, hset]
      simp [Beat.write, ValueStream.close, hu]
    | false =>
      obtain ⟨hlawful, hfold⟩ :=
        @ih { stream with value := u, version := stream.version + 1 } rfl (hopen.trans hu.symm)
      refine ⟨.set hopen hgoing hlt (by rw [hset]; exact hlawful), ?_⟩
      rw [if_neg (by simp), List.cons_append, List.nil_append, List.foldl_cons, hset, hfold]
      simp only [List.length_cons, ValueStream.mk.injEq, true_and, and_true]
      omega

/-! ## §2 Sessions -/

/-- How far a listener has come. -/
inductive Listener where
  | listening (watcher : Watcher)
  /-- nothing more is to be heard, and it is about to ask how the installation has ended -/
  | leaving
  | ended (outcome : Except Failure Unit)

/-- A listener to a server, and the states that it has been told of. -/
structure Session where
  server : Server
  listener : Listener := .listening .start
  told : List InstallState := []

namespace Session

/-- One look of the listener. -/
def look (l : Session) : Session :=
  match l.listener with
  | .listening watcher =>
    match watcher.next l.server.install with
    | (.value state, watcher) =>
      if state.isSilent then { l with listener := .leaving }
      else { l with listener := .listening watcher, told := l.told ++ [state] }
    | (.finished, _) => { l with listener := .leaving }
    | (.blocked, _) => l
  | .leaving => { l with listener := .ended l.server.followOutcome }
  | .ended _ => l

/-- One beat. -/
def beat (l : Session) : Beat → Session
  | .look => l.look
  | b => { l with server := { l.server with install := b.write l.server.install } }

/-- The session after some beats. -/
def after (l : Session) (beats : List Beat) : Session :=
  beats.foldl beat l

@[simp] theorem after_nil (l : Session) : l.after [] = l := rfl

@[simp] theorem after_cons (l : Session) (b : Beat) (beats : List Beat) :
    l.after (b :: beats) = (l.beat b).after beats := rfl

theorem after_append (l : Session) (beats beats' : List Beat) :
    l.after (beats ++ beats') = (l.after beats).after beats' :=
  List.foldl_append

/-- A listener that has not looked yet. -/
def opened (s : Server) : Session where
  server := s

/-- The state that the next look shows, if there is one. -/
def pending (l : Session) : List InstallState :=
  match l.listener with
  | .listening watcher =>
    match (watcher.next l.server.install).1 with
    | .value state => [state]
    | _ => []
  | _ => []

theorem server_look (l : Session) : l.look.server = l.server := by
  unfold look
  split
  · split
    · split <;> rfl
    · rfl
    · rfl
  · rfl
  · rfl

theorem install_beat (l : Session) (b : Beat) :
    (l.beat b).server.install = b.write l.server.install := by
  cases b with
  | look => exact congrArg Server.install l.server_look
  | set | close => rfl

/-- Beats concern the stream only. -/
theorem server_after (l : Session) (beats : List Beat) :
    (l.after beats).server =
      { l.server with install := beats.foldl Beat.write l.server.install } := by
  induction beats generalizing l with
  | nil => rfl
  | cons b beats ih =>
    rw [after_cons, ih, install_beat]
    cases b with
    | look => rw [beat, server_look]; rfl
    | set | close => rfl

/-- Without a look the listener does not move. -/
theorem after_of_look_not_mem {l : Session} {beats : List Beat} (h : .look ∉ beats) :
    (l.after beats).listener = l.listener ∧ (l.after beats).told = l.told := by
  induction beats generalizing l with
  | nil => exact ⟨rfl, rfl⟩
  | cons b beats ih =>
    obtain ⟨hb, hbeats⟩ := not_or.mp (mt List.mem_cons.mpr h)
    obtain ⟨hlistener, htold⟩ := @ih (l.beat b) hbeats
    cases b with
    | look => exact absurd rfl hb
    | set | close => exact ⟨hlistener, htold⟩

/-- Looks are no matter of the stream. -/
theorem foldl_write_filter (stream : ValueStream InstallState) (beats : List Beat) :
    (beats.filter Beat.isWrite).foldl Beat.write stream = beats.foldl Beat.write stream := by
  induction beats generalizing stream with
  | nil => rfl
  | cons b beats ih =>
    cases b <;> exact ih _

section Looks

variable {s : Server} {told : List InstallState}

theorem look_of_unseen {seen : Option Nat} (h : ∀ v, seen = some v → v < s.install.version) :
    look ⟨s, .listening (.following seen), told⟩ =
      if s.state.isSilent then ⟨s, .leaving, told⟩
      else ⟨s, .listening (if s.install.closed then .finishing
        else .following (some s.install.version)), told ++ [s.state]⟩ := by
  have hne : (seen == some s.install.version) = false := by
    apply beq_eq_false_iff_ne.mpr
    exact fun heq => Nat.lt_irrefl _ (h _ heq)
  simp only [look, Watcher.next, hne]
  rfl

theorem look_of_seen :
    look ⟨s, .listening (.following (some s.install.version)), told⟩ =
      if s.install.closed then ⟨s, .leaving, told⟩
      else ⟨s, .listening (.following (some s.install.version)), told⟩ := by
  cases hc : s.install.closed <;> simp [look, Watcher.next, hc]

end Looks

/-! ## §3 What every beat keeps -/

/-- The place of a listener that has been told of the given states. -/
inductive Placed (s : Server) (told : List InstallState) : Listener → Prop
  /-- the current state is new to it -/
  | unseen {seen : Option Nat} (hseen : ∀ v, seen = some v → v < s.install.version)
      (hlt : ∀ t ∈ told, t < s.state) : Placed s told (.listening (.following seen))
  | seen (hlast : told.getLast? = some s.state) :
      Placed s told (.listening (.following (some s.install.version)))
  | finishing (hclosed : s.install.closed = true) (hlast : told.getLast? = some s.state) :
      Placed s told (.listening .finishing)
  | leaving (hfinal : s.state.isFinal = true)
      (hlast : s.state.isSilent = false → told.getLast? = some s.state) : Placed s told .leaving
  | ended (hfinal : s.state.isFinal = true)
      (hlast : s.state.isSilent = false → told.getLast? = some s.state) :
      Placed s told (.ended s.followOutcome)

/-- A listener has been told of increasing states, none of which is silent, and only a final state
is the last one of a stream. -/
structure Sound (l : Session) : Prop where
  increasing : l.told.Pairwise (· < ·)
  audible : ∀ s ∈ l.told, s.isSilent = false
  final_of_closed : l.server.install.closed = true → l.server.state.isFinal = true
  placed : Placed l.server l.told l.listener

theorem sound_opened {s : Server} (h : s.install.closed = true → s.state.isFinal = true) :
    (opened s).Sound where
  increasing := List.Pairwise.nil
  audible := nofun
  final_of_closed := h
  placed := .unseen nofun nofun

theorem isFinal_of_isSilent {s : InstallState} (h : s.isSilent = true) : s.isFinal = true := by
  cases s <;> first | rfl | cases h

/-- What is above the last of increasing states is above all of them. -/
theorem lt_of_getLast {told : List InstallState} {last u : InstallState}
    (h : told.Pairwise (· < ·)) (hlast : told.getLast? = some last) (hu : last < u) :
    ∀ t ∈ told, t < u := by
  obtain ⟨before, rfl⟩ := List.getLast?_eq_some_iff.mp hlast
  intro t ht
  rcases List.mem_append.mp ht with ht | ht
  · have hlt : t < last := (List.pairwise_append.mp h).2.2 t ht last List.mem_cons_self
    exact Nat.lt_trans hlt hu
  · rw [List.mem_singleton.mp ht]
    exact hu

/-- Whoever is told of one more state has been told of it last. -/
theorem Sound.tell {s : Server} {listener listener' : Listener} {told : List InstallState}
    (h : Sound ⟨s, listener, told⟩) (hlt : ∀ t ∈ told, t < s.state)
    (hs : s.state.isSilent = false) (hplaced : Placed s (told ++ [s.state]) listener') :
    Sound ⟨s, listener', told ++ [s.state]⟩ where
  increasing := by
    refine List.pairwise_append.mpr ⟨h.increasing, List.pairwise_singleton _ _, fun t ht u hu => ?_⟩
    rw [List.mem_singleton.mp hu]
    exact hlt t ht
  audible t ht := by
    rcases List.mem_append.mp ht with ht | ht
    · exact h.audible t ht
    · rw [List.mem_singleton.mp ht]
      exact hs
  final_of_closed := h.final_of_closed
  placed := hplaced

theorem Sound.look {l : Session} (h : l.Sound) : l.look.Sound := by
  obtain ⟨s, listener, told⟩ := l
  have hplaced : Placed s told listener := h.placed
  -- a look at an unseen state is the only one that tells something
  cases hplaced with
  | unseen hseen hlt =>
    rw [look_of_unseen hseen]
    cases hs : s.state.isSilent with
    | true =>
      -- a silent state is final, and the listener leaves without a word
      exact ⟨h.increasing, h.audible, h.final_of_closed,
        .leaving (isFinal_of_isSilent hs) fun hs' => nomatch hs.symm.trans hs'⟩
    | false =>
      apply h.tell hlt hs
      have hlast : (told ++ [s.state]).getLast? = some s.state := List.getLast?_concat ..
      cases hc : s.install.closed with
      | true => exact .finishing hc hlast
      | false => exact .seen hlast
  | seen hlast =>
    rw [look_of_seen]
    split
    · rename_i hc
      exact ⟨h.increasing, h.audible, h.final_of_closed,
        .leaving (h.final_of_closed hc) fun _ => hlast⟩
    · exact h
  | finishing hclosed hlast =>
    exact ⟨h.increasing, h.audible, h.final_of_closed,
      .leaving (h.final_of_closed hclosed) fun _ => hlast⟩
  | leaving hfinal hlast =>
    exact ⟨h.increasing, h.audible, h.final_of_closed, .ended hfinal hlast⟩
  | ended => exact h

/-- Every beat that is lawful keeps a session sound. -/
theorem Sound.beat {l : Session} {b : Beat} {beats : List Beat} (h : l.Sound)
    (hl : Beat.Lawful l.server.install (b :: beats)) :
    (l.beat b).Sound ∧ Beat.Lawful (l.beat b).server.install beats := by
  obtain ⟨s, listener, told⟩ := l
  have hplaced : Placed s told listener := h.placed
  rw [install_beat]
  cases hl with
  | look hl => exact ⟨h.look, hl⟩
  | close hfinal hl =>
    refine ⟨⟨h.increasing, h.audible, fun _ => hfinal, ?_⟩, hl⟩
    -- nobody is moved by the close; whoever has seen the last state will find it at the next look
    cases hplaced with
    | unseen hseen hlt => exact .unseen hseen hlt
    | seen hlast => exact .seen hlast
    | finishing _ hlast => exact .finishing rfl hlast
    | leaving hfinal hlast => exact .leaving hfinal hlast
    | ended hfinal hlast => exact .ended hfinal hlast
  | @set _ u _ hopen hgoing hlt hl =>
    refine ⟨?_, hl⟩
    have hset : (Session.beat ⟨s, listener, told⟩ (.set u)) =
        ⟨{ s with install := { s.install with value := u, version := s.install.version + 1 } },
          listener, told⟩ := by
      simp only [Session.beat, Beat.write_set_of_open hopen]
    rw [hset]
    refine ⟨h.increasing, h.audible, fun hc => ?_, ?_⟩
    · rw [hopen] at hc
      cases hc
    · -- the new state is above those that the listener has been told of
      cases hplaced with
      | unseen hseen htold =>
        refine .unseen (fun v hv => ?_) fun t ht => ?_
        · exact Nat.lt_succ_of_lt (hseen v hv)
        · exact Nat.lt_trans (htold t ht) hlt
      | seen hlast =>
        refine .unseen (fun v hv => ?_) fun t ht => ?_
        · obtain rfl := Option.some.inj hv
          exact Nat.lt_succ_self _
        · exact lt_of_getLast h.increasing hlast hlt t ht
      | finishing hclosed hlast =>
        rw [hopen] at hclosed
        cases hclosed
      | leaving hfinal hlast => exact nomatch hgoing.symm.trans hfinal
      | ended hfinal hlast => exact nomatch hgoing.symm.trans hfinal

theorem Sound.after_append {l : Session} {beats beats' : List Beat} (h : l.Sound)
    (hl : Beat.Lawful l.server.install (beats ++ beats')) :
    (l.after beats).Sound ∧ Beat.Lawful (l.after beats).server.install beats' := by
  induction beats generalizing l with
  | nil => exact ⟨h, hl⟩
  | cons b beats ih =>
    obtain ⟨hb, hrest⟩ := h.beat hl
    exact ih hb hrest

theorem Sound.after {l : Session} {beats : List Beat} (h : l.Sound)
    (hl : Beat.Lawful l.server.install beats) : (l.after beats).Sound := by
  rw [← List.append_nil beats] at hl
  exact (h.after_append hl).1

/-! ## §4 What a listener is told of -/

section Pending

variable {s : Server} {told : List InstallState}

theorem pending_of_unseen {seen : Option Nat} (h : ∀ v, seen = some v → v < s.install.version) :
    pending ⟨s, .listening (.following seen), told⟩ = [s.state] := by
  have hne : (seen == some s.install.version) = false := by
    apply beq_eq_false_iff_ne.mpr
    exact fun heq => Nat.lt_irrefl _ (h _ heq)
  simp only [pending, Watcher.next, hne]
  rfl

theorem pending_of_seen :
    pending ⟨s, .listening (.following (some s.install.version)), told⟩ = [] := by
  cases hc : s.install.closed <;> simp [pending, Watcher.next, hc]

theorem pending_of_start {l : Session} (h : l.listener = .listening .start) :
    l.pending = [l.server.state] := by
  obtain ⟨s, listener, told⟩ := l
  cases h
  exact pending_of_unseen nofun

end Pending

/-- A look tells the listener of the state that is new to it, unless that is a silent one. -/
theorem Sound.told_look {l : Session} (h : l.Sound) :
    l.look.told = l.told ++ l.pending.filter (!·.isSilent) ∧ l.look.pending = [] := by
  obtain ⟨s, listener, told⟩ := l
  have hplaced : Placed s told listener := h.placed
  cases hplaced with
  | unseen hseen hlt =>
    rw [look_of_unseen hseen, pending_of_unseen hseen]
    cases hs : s.state.isSilent with
    | true => simp [hs, pending]
    | false =>
      refine ⟨by simp [hs], ?_⟩
      cases hc : s.install.closed with
      | true => rfl
      | false => exact pending_of_seen
  | seen hlast =>
    rw [look_of_seen, pending_of_seen]
    split
    · simp [pending]
    · simp [pending_of_seen]
  | finishing | leaving | ended => exact ⟨(List.append_nil told).symm, rfl⟩

/-- A state that is set is new to the listener. -/
theorem Sound.pending_set {l : Session} (h : l.Sound) (hopen : l.server.install.closed = false)
    (hgoing : l.server.state.isFinal = false) (u : InstallState) :
    (l.beat (.set u)).pending = [u] ∧ (l.beat (.set u)).told = l.told := by
  obtain ⟨s, listener, told⟩ := l
  have hplaced : Placed s told listener := h.placed
  simp only [Session.beat, Beat.write_set_of_open hopen, and_true]
  cases hplaced with
  | unseen hseen => exact pending_of_unseen fun v hv => Nat.lt_succ_of_lt (hseen v hv)
  | seen =>
    apply pending_of_unseen
    intro v hv
    obtain rfl := Option.some.inj hv
    exact Nat.lt_succ_self _
  | finishing hclosed => exact nomatch hopen.symm.trans hclosed
  | leaving hfinal | ended hfinal => exact nomatch hgoing.symm.trans hfinal

theorem Sound.pending_close {l : Session} (h : l.Sound) :
    (l.beat .close).pending = l.pending ∧ (l.beat .close).told = l.told := by
  obtain ⟨s, listener, told⟩ := l
  have hplaced : Placed s told listener := h.placed
  refine ⟨?_, rfl⟩
  cases hplaced with
  | unseen hseen =>
    rw [pending_of_unseen hseen]
    exact pending_of_unseen hseen
  | seen =>
    rw [pending_of_seen]
    exact pending_of_seen
  | finishing | leaving | ended => rfl

/-- The writes of an accepted state make it new to the listener, who has not moved. -/
theorem Sound.after_beats {l : Session} (h : l.Sound) {u : InstallState}
    (hl : Beat.Lawful l.server.install u.beats) :
    (l.after u.beats).pending = [u] ∧ (l.after u.beats).told = l.told ∧
      (l.after u.beats).listener = l.listener := by
  unfold InstallState.beats at hl ⊢
  obtain ⟨hset, hclose⟩ := h.beat hl
  cases hl with
  | set hopen hgoing hlt hl =>
    obtain ⟨hpending, htold⟩ := h.pending_set hopen hgoing u
    cases hu : u.isFinal with
    | false => exact ⟨hpending, htold, rfl⟩
    | true =>
      obtain ⟨hpending', htold'⟩ := hset.pending_close
      exact ⟨hpending'.trans hpending, htold'.trans htold, rfl⟩

/-- From any moment on a listener is told, in order and each at most once, of the state that is new
to it and of those that are set later; and of all of them that are not silent, if it is
attentive. -/
theorem Sound.told_after {l : Session} {beats : List Beat} (h : l.Sound)
    (hl : Beat.Lawful l.server.install beats) :
    ∃ new, (l.after beats).told = l.told ++ new ∧
      new.Sublist (l.pending ++ beats.filterMap Beat.state?) ∧
      ∀ unseen, Beat.Attentive unseen beats → (unseen = false → l.pending = []) →
        new = (l.pending ++ beats.filterMap Beat.state?).filter (!·.isSilent) := by
  -- along the beats: what is pending is told at the next look, unless a state is set over it first
  induction beats generalizing l with
  | nil =>
    refine ⟨[], (List.append_nil _).symm, List.nil_sublist _, fun unseen hunseen hpending => ?_⟩
    rw [hpending hunseen]
    rfl
  | cons b beats ih =>
    obtain ⟨hb, hrest⟩ := h.beat hl
    obtain ⟨new, htold, hsublist, hattentive⟩ := ih hb hrest
    rw [after_cons, htold]
    cases hl with
    | look hl =>
      obtain ⟨htold, hpending⟩ := h.told_look
      rw [show l.beat .look = l.look from rfl] at *
      rw [hpending] at hsublist hattentive
      refine ⟨l.pending.filter (!·.isSilent) ++ new, ?_, ?_, fun unseen hunseen _ => ?_⟩
      · rw [htold, List.append_assoc]
      · exact List.filter_sublist.append hsublist
      · rw [hattentive false hunseen fun _ => rfl]
        exact (List.filter_append ..).symm
    | close hfinal hl =>
      obtain ⟨hpending, htold⟩ := h.pending_close
      rw [hpending] at hsublist hattentive
      exact ⟨new, by rw [htold], hsublist, fun unseen hunseen => hattentive unseen hunseen⟩
    | @set _ u _ hopen hgoing hlt hl =>
      obtain ⟨hpending, htold⟩ := h.pending_set hopen hgoing u
      rw [hpending] at hsublist hattentive
      refine ⟨new, by rw [htold], ?_, fun unseen hunseen hnone => ?_⟩
      · exact hsublist.trans (List.sublist_append_right _ _)
      · rw [hnone hunseen.1]
        exact hattentive true hunseen.2 nofun

/-- The first look of a listener: from the current state on it is told of those that are set later,
or of nothing if the current one is silent. -/
theorem Sound.told_after_first {l : Session} {beats : List Beat} (h : l.Sound)
    (hl : Beat.Lawful l.server.install (.look :: beats)) (htold : l.told = [])
    (hpending : l.pending = [l.server.state]) :
    if l.server.state.isSilent then (l.after (.look :: beats)).told = []
    else ∃ later, (l.after (.look :: beats)).told = l.server.state :: later ∧
      later.Sublist (beats.filterMap Beat.state?) ∧
      (Beat.Attentive false beats →
        later = (beats.filterMap Beat.state?).filter (!·.isSilent)) := by
  obtain ⟨hlook, hseen⟩ := h.told_look
  obtain ⟨hsound, hrest⟩ := h.beat hl
  obtain ⟨new, hnew, hsublist, hattentive⟩ := hsound.told_after hrest
  rw [show l.beat .look = l.look from rfl] at hnew hsublist hattentive
  rw [htold, hpending] at hlook
  rw [hseen, List.nil_append] at hsublist hattentive
  rw [after_cons, show l.beat .look = l.look from rfl, hnew, hlook]
  split
  · -- after a silent state nothing is set any more
    rename_i hs
    cases hl with
    | look hl =>
      rw [hl.states_eq_nil (isFinal_of_isSilent hs)] at hsublist
      rw [List.sublist_nil.mp hsublist]
      simp [hs]
  · rename_i hs
    refine ⟨new, by simp [hs], hsublist, fun hbeats => hattentive false hbeats fun _ => rfl⟩

/-! ## §5 How a session ends -/

/-- The ways in which a session ends. -/
inductive EndsWith (l : Session) : Except Failure Unit → Prop
  | completed (hstate : l.server.state = .completed)
      (hlast : (l.told.map InstallState.fraction).getLast? = some 1.0) : EndsWith l (.ok ())
  | failed {f : Failure} (hstate : l.server.state = .failed)
      (hf : f.class? = some .installFailed) : EndsWith l (.error f)
  | canceled {f : Failure} (hstate : l.server.state = .canceled)
      (hf : f.class? = some .installCanceled) : EndsWith l (.error f)

/-- It depends on the state and on what the listener has been told. -/
theorem EndsWith.congr {l l' : Session} {o : Except Failure Unit} (h : l.EndsWith o)
    (hstate : l'.server.state = l.server.state) (htold : l'.told = l.told) : l'.EndsWith o := by
  cases h with
  | completed hcompleted hlast => exact .completed (hstate.trans hcompleted) (htold ▸ hlast)
  | failed hfailed hf => exact .failed (hstate.trans hfailed) hf
  | canceled hcanceled hf => exact .canceled (hstate.trans hcanceled) hf

/-- A session does not end before the installation, and it ends in the way of the final state. -/
theorem Sound.endsWith {l : Session} (h : l.Sound) {o : Except Failure Unit}
    (ho : l.listener = .ended o) : l.server.state.isFinal = true ∧ l.EndsWith o := by
  obtain ⟨s, listener, told⟩ := l
  have hplaced : Placed s told listener := h.placed
  cases ho
  cases hplaced with
  | ended hfinal hlast =>
    refine ⟨hfinal, ?_⟩
    cases hstate : s.state with
    | completed =>
      rw [hstate] at hlast
      have hone : InstallState.completed.fraction = 1.0 := by decide +kernel
      have hcompleted : s.followOutcome = .ok () := by simp [Server.followOutcome, hstate]
      rw [hcompleted]
      refine .completed hstate ?_
      rw [List.getLast?_map, hlast rfl, ← hone]
      rfl
    | failed =>
      have hfailed : s.followOutcome = .error (.setback (.installation s.id)) := by
        simp [Server.followOutcome, hstate]
      rw [hfailed]
      exact .failed hstate rfl
    | canceled =>
      have hcanceled : s.followOutcome = .error (.canceled s.id) := by
        simp [Server.followOutcome, hstate]
      rw [hcanceled]
      exact .canceled hstate rfl
    | _ =>
      rw [hstate] at hfinal
      cases hfinal

/-- No state that a listener is told of has the fraction of a silent one. -/
theorem fraction_ne_zero {s : InstallState} (h : s.isSilent = false) : s.fraction ≠ 0.0 := by
  cases s with
  | failed | canceled => cases h
  | _ => decide +kernel

theorem Sound.isListening {l : Session} (h : l.Sound)
    (hs : l.server.state.isFinal = false) : ∃ watcher, l.listener = .listening watcher := by
  obtain ⟨s, listener, told⟩ := l
  have hplaced : Placed s told listener := h.placed
  cases hplaced with
  | unseen | seen | finishing => exact ⟨_, rfl⟩
  | leaving hfinal | ended hfinal => exact nomatch hs.symm.trans hfinal

theorem Sound.isFinal_of_leaving {l : Session} (h : l.Sound) (hl : l.listener = .leaving) :
    l.server.state.isFinal = true := by
  have hplaced := h.placed
  rw [hl] at hplaced
  cases hplaced with
  | leaving hfinal => exact hfinal

theorem after_looks_of_ended {l : Session} {o : Except Failure Unit} (h : l.listener = .ended o)
    (n : Nat) : (l.after (List.replicate n .look)).listener = .ended o := by
  induction n generalizing l with
  | zero => exact h
  | succ n ih =>
    apply ih
    simp only [beat, look, h]

/-- Once the stream is closed, three looks end a session: one for the final state, one that finds
nothing more, and one at how the installation has ended. -/
theorem Sound.exists_ended_of_closed {l : Session} (h : l.Sound)
    (hc : l.server.install.closed = true) (n : Nat) :
    ∃ o, (l.after (List.replicate (n + 3) .look)).listener = .ended o ∧
      (l.after (List.replicate (n + 3) .look)).EndsWith o := by
  suffices ∃ o, l.look.look.look.listener = .ended o by
    obtain ⟨o, ho⟩ := this
    have hended := after_looks_of_ended ho n
    have hlawful : Beat.Lawful l.server.install (List.replicate (n + 3) .look) := by
      apply Beat.Lawful.of_writes
      rw [List.filter_eq_nil_iff.mpr fun b hb => by rw [List.eq_of_mem_replicate hb]; nofun]
      exact .nil _
    exact ⟨o, hended, ((h.after hlawful).endsWith hended).2⟩
  -- wherever the listener is, it leaves after two looks at the closed stream, if not before
  obtain ⟨s, listener, told⟩ := l
  have hplaced : Placed s told listener := h.placed
  have hclosed : s.install.closed = true := hc
  cases hplaced with
  | unseen hseen =>
    rw [look_of_unseen hseen, hclosed]
    split <;> exact ⟨_, rfl⟩
  | seen =>
    rw [look_of_seen, hclosed]
    exact ⟨_, rfl⟩
  | finishing | leaving | ended => exact ⟨_, rfl⟩

end Session

end Fleet
