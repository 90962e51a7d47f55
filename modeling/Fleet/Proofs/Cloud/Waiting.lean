import Mathlib.Data.Nat.Find
import Fleet.Account.Submission
import Fleet.Proofs.Cloud.Dealings
import Fleet.Proofs.Cloud.Operations

/-!
# Waiting again

A wait for an operation of a zone is repeated, always with the same request, as long as the
operation comes back without errors and says that it goes on.  The first other reply is the last
one.

## Main definitions

- `Client.Waits`: the dealings of waiting for an operation, whatever shape the replies have

## Main statements

- `Client.waitZone_outcome`: what one wait comes back with
- `Client.awaitZone_of_goesOn`: after replies by which the operation goes on, one waits again
- `Client.awaitZone_of_concludes`: any other reply is the end of the wait
- `Client.awaitZone_of_replies`: what is requested until then, and what comes back
- `Client.awaitZone_ends_iff`: when there is such an end
- `Client.does_awaitZone`: waiting does what it is said to do
-/

namespace Fleet

open World Operation

namespace Client

variable {client : Client} {l : ZoneLocator} {name : Json} {token : String} {w : World}
  {note : Json → Call Unit}

/-- A request for an operation comes back with what the operation is worth. -/
theorem checked_reply (client : Client) {request : Request} (hp : request.headers = .null)
    (htoken : w.tokens.getToken.1 = .ok token)
    (hreply : ∀ operation, w.network.reply request 0 = .ok operation → operation.IsOperation) :
    ∃ v, Call.outcome (client.execute request >>= checked) w =
        ((w.network.reply request 0).bind verdict, v) ∧
      w.requestsSince v = [request] ∧
      ∀ operation, w.network.reply request 0 = .ok operation → w.Answered token [request] v := by
  obtain ⟨hresult, hrequests, hanswered⟩ := client.execute_reply hp htoken
  rcases hx : (client.execute request).outcome w with ⟨f | operation, m⟩
  all_goals
    rw [hx] at hresult hrequests hanswered
    rw [← hresult]
  · exact ⟨m, run_bind_of_error hx, hrequests, nofun⟩
  · obtain ⟨v, hremarks, hchecked⟩ := checked_outcome (hreply operation hresult.symm) m
    have hall : w.Answered token [request] v := (hanswered operation rfl).trans_remarks hremarks
    exact ⟨v, (run_bind_of_ok hx).trans hchecked, hall.requests_eq, fun _ _ => hall⟩

/-- One wait sends its request and comes back with what the operation is worth. -/
theorem waitZone_outcome (client : Client) (l : ZoneLocator) (name : Json)
    (htoken : w.tokens.getToken.1 = .ok token) :
    let request := client.waitZoneOperation l name.text
    (∀ operation, w.network.reply request 0 = .ok operation → operation.IsOperation) →
    ∃ v, (client.waitZone l name).outcome w = ((w.network.reply request 0).bind verdict, v) ∧
      w.Extends (fun _ => True) v ∧ w.requestsSince v = [request] ∧
      ∀ operation, w.network.reply request 0 = .ok operation → w.Answered token [request] v := by
  intro request hreply
  -- the wait is announced by a log line before the request is made
  let m := w.log .debug s!"Waiting on zone operation {name.text} in {l.zone}"
  have hremarks : w.Remarks m := .record rfl w
  obtain ⟨v, houtcome, hrequests, hanswered⟩ :=
    client.checked_reply (w := m) (show request.headers = .null from rfl) htoken hreply
  have hstart : w.Answered token [] m := (Answered.refl htoken).trans_remarks hremarks
  have hgrows : m.Extends (Event.Serves (some request)) v :=
    ((client.execute_extends request).bind fun operation => checked_extends _ operation).of_run
      houtcome
  refine ⟨v, houtcome, hstart.grows.trans (hgrows.mono fun _ _ => trivial), ?_,
    fun operation hoperation => hstart.trans (hanswered operation hoperation)⟩
  rw [requestsSince_trans hremarks.grows hgrows, hremarks.requestsSince_eq_nil, hrequests]
  rfl

/-- Noting something only makes remarks. -/
def Notes (note : Json → Call Unit) : Prop :=
  ∀ operation w, ∃ v, w.Remarks v ∧ (note operation).outcome w = (.ok (), v)

/-- After a reply by which the operation goes on, one waits again. -/
theorem awaitZone_of_goesOn (hnote : Notes note) (htoken : w.tokens.getToken.1 = .ok token)
    (hreply : GoesOn (w.network.reply (client.waitZoneOperation l name.text) 0)) (waits : Nat) :
    ∃ v, w.Answered token [client.waitZoneOperation l name.text] v ∧
      (client.awaitZone l name note (waits + 1)).outcome w =
        (client.awaitZone l name note waits).outcome v := by
  obtain ⟨m, hwait, -, -, hanswered⟩ :=
    client.waitZone_outcome l name htoken fun _ => hreply.isOperation
  obtain ⟨operation, hoperation, hisOperation, hlisted, hgoing⟩ := hreply
  have hverdict : (w.network.reply (client.waitZoneOperation l name.text) 0).bind verdict =
      .ok operation := by
    rw [hoperation]
    simp only [Except.bind, verdict, hlisted]
  rw [hverdict] at hwait
  have hdone : isDone operation = .ok false := isDone_eq_ok hisOperation (by simp [hgoing])
  obtain ⟨v, hremarks, hnoted⟩ := hnote operation m
  refine ⟨v, (hanswered operation hoperation).trans_remarks hremarks, ?_⟩
  rw [awaitZone, Job.outcome]
  refine (run_bind_of_ok (Job.run_ofCall_of_ok hwait)).trans ?_
  rw [Job.run_ofFault_bind, hdone]
  exact run_bind_of_ok (Job.run_ofCall_of_ok hnoted)

/-- Any other reply is the end of the wait. -/
theorem awaitZone_of_concludes {result : Except Failure Json}
    (htoken : w.tokens.getToken.1 = .ok token)
    (hreply : Concludes (w.network.reply (client.waitZoneOperation l name.text) 0) result)
    (waits : Nat) :
    ∃ v, w.Extends (fun _ => True) v ∧
      w.requestsSince v = [client.waitZoneOperation l name.text] ∧
      (client.awaitZone l name note (waits + 1)).outcome w = (result.mapError .failure, v) := by
  obtain ⟨v, hwait, hgrows, hrequests, -⟩ :=
    client.waitZone_outcome l name htoken fun _ => hreply.isOperation
  refine ⟨v, hgrows, hrequests, ?_⟩
  generalize w.network.reply (client.waitZoneOperation l name.text) 0 = reply at hreply hwait
  rw [awaitZone, Job.outcome]
  cases hreply with
  | failed f => exact run_bind_of_error (Job.run_ofCall_of_error hwait)
  | erred _ hlisted =>
    simp only [Except.bind, verdict, hlisted] at hwait
    exact run_bind_of_error (Job.run_ofCall_of_error hwait)
  | @done operation hisOperation hlisted hdone =>
    simp only [Except.bind, verdict, hlisted] at hwait
    have hfinal : isDone operation = .ok true := isDone_eq_ok hisOperation (by simp [hdone])
    refine (run_bind_of_ok (Job.run_ofCall_of_ok hwait)).trans ?_
    rw [Job.run_ofFault_bind, hfinal]
    rfl

/-- As long as the operation goes on, one is where one was at the beginning. -/
theorem awaitZone_of_all_goOn (hnote : Notes note) (htoken : w.tokens.getToken.1 = .ok token)
    {k : Nat}
    (hreplies : ∀ i < k, GoesOn (w.network.reply (client.waitZoneOperation l name.text) i))
    (waits : Nat) :
    ∃ v, w.Answered token (List.replicate k (client.waitZoneOperation l name.text)) v ∧
      (client.awaitZone l name note (waits + k)).outcome w =
        (client.awaitZone l name note waits).outcome v := by
  induction k generalizing w with
  | zero => exact ⟨w, .refl htoken, rfl⟩
  | succ k ih =>
    obtain ⟨m, hfirst, hstep⟩ :=
      awaitZone_of_goesOn hnote htoken (hreplies 0 (Nat.succ_pos k)) (waits + k)
    have hlater : ∀ i < k, GoesOn (m.network.reply (client.waitZoneOperation l name.text) i) := by
      intro i hi
      rw [hfirst.reply_eq (List.forall_mem_singleton.mpr rfl)]
      exact hreplies (i + 1) (Nat.succ_lt_succ hi)
    obtain ⟨v, hrest, houtcome⟩ := ih hfirst.token_eq hlater
    exact ⟨v, hfirst.trans hrest, hstep.trans houtcome⟩

/-- So the wait ends with the first reply by which the operation does not go on. -/
theorem awaitZone_of_replies (hnote : Notes note) (htoken : w.tokens.getToken.1 = .ok token)
    {k : Nat}
    (hreplies : ∀ i < k, GoesOn (w.network.reply (client.waitZoneOperation l name.text) i)) :
    let request := client.waitZoneOperation l name.text
    let waiting (waits : Nat) := (client.awaitZone l name note waits).outcome w
    ((waiting k).1 = .error .unfinished ∧
      w.requestsSince (waiting k).2 = List.replicate k request) ∧
    ∀ result, Concludes (w.network.reply request k) result → ∀ waits > k,
      (waiting waits).1 = result.mapError .failure ∧
      w.requestsSince (waiting waits).2 = List.replicate (k + 1) request := by
  intro request waiting
  constructor
  · obtain ⟨v, hanswered, houtcome⟩ := awaitZone_of_all_goOn hnote htoken hreplies 0
    rw [Nat.zero_add] at houtcome
    rw [show waiting k = _ from houtcome]
    exact ⟨rfl, hanswered.requests_eq⟩
  · intro result hlast waits hwaits
    obtain ⟨more, rfl⟩ : ∃ more, waits = more + 1 + k := ⟨waits - k - 1, by omega⟩
    obtain ⟨v, hanswered, houtcome⟩ := awaitZone_of_all_goOn hnote htoken hreplies (more + 1)
    have hplaces : ∀ q ∈ List.replicate k request, q.place = request.place :=
      fun q hq => by rw [List.eq_of_mem_replicate hq]
    have hreply : v.network.reply request 0 = w.network.reply request k := by
      rw [hanswered.reply_eq hplaces, List.length_replicate, Nat.zero_add]
    rw [← hreply] at hlast
    obtain ⟨u, hgrows, hrequests, hends⟩ := awaitZone_of_concludes hanswered.token_eq hlast more
    rw [show waiting (more + 1 + k) = _ from houtcome.trans hends]
    refine ⟨rfl, ?_⟩
    rw [requestsSince_trans hanswered.grows hgrows, hanswered.requests_eq, hrequests,
      List.replicate_succ']

/-- If all replies that come are operations, there is an end of the wait exactly if there is a reply
by which the operation does not go on. -/
theorem awaitZone_ends_iff (hnote : Notes note) (htoken : w.tokens.getToken.1 = .ok token)
    (hreplies : ∀ i operation,
      w.network.reply (client.waitZoneOperation l name.text) i = .ok operation →
        operation.IsOperation) :
    (∃ waits, ((client.awaitZone l name note waits).outcome w).1 ≠ .error .unfinished) ↔
      ∃ k result,
        Concludes (w.network.reply (client.waitZoneOperation l name.text) k) result := by
  constructor
  · rintro ⟨waits, hends⟩
    by_contra hnone
    push Not at hnone
    -- then the operation goes on by every reply, however long the wait is
    have hall : ∀ i < waits,
        GoesOn (w.network.reply (client.waitZoneOperation l name.text) i) := by
      intro i _
      rcases goesOn_or_concludes (hreplies i) with hgoes | ⟨result, hlast⟩
      · exact hgoes
      · exact absurd hlast (hnone i result)
    exact hends (awaitZone_of_replies hnote htoken hall).1.1
  · intro hsome
    classical
    obtain ⟨result, hlast⟩ := Nat.find_spec hsome
    have hbefore : ∀ i < Nat.find hsome,
        GoesOn (w.network.reply (client.waitZoneOperation l name.text) i) := by
      intro i hi
      rcases goesOn_or_concludes (hreplies i) with hgoes | hends
      · exact hgoes
      · exact absurd hends (Nat.find_min hsome hi)
    obtain ⟨-, hend⟩ := awaitZone_of_replies hnote htoken hbefore
    obtain ⟨hresult, -⟩ := hend result hlast (Nat.find hsome + 1) (Nat.lt_succ_self _)
    refine ⟨Nat.find hsome + 1, ?_⟩
    rw [show ((client.awaitZone l name note (Nat.find hsome + 1)).outcome w).1 = _ from hresult]
    cases result <;> exact nofun

/-! ## §2 Replies of any shape -/

/-- The dealings of waiting for an operation at most so many times, and what they come to. -/
inductive Waits (request : Request) : Nat → List Dealing → Except Halt Json → Prop
  /-- no reply has said that the operation is done -/
  | unfinished : Waits request 0 [] (.error .unfinished)
  | failed {waits : Nat} {answer : Answer} {f : Failure} (h : answer.content request = .error f) :
      Waits request (waits + 1) [.exchanged ⟨request, answer⟩] (.error (.failure f))
  | rejected {waits : Nat} {answer : Answer} {operation : Json} {f : Failure}
      (h : answer.content request = .ok operation) (hrejected : ¬ IsAccepted operation) :
      Waits request (waits + 1) [.exchanged ⟨request, answer⟩] (.error (.failure f))
  | again {waits : Nat} {answer : Answer} {operation : Json} {later : List Dealing}
      {result : Except Halt Json} (h : answer.content request = .ok operation)
      (haccepted : IsAccepted operation) (hgoing : ¬ SaysDone operation)
      (hlater : Waits request waits later result) :
      Waits request (waits + 1) (.exchanged ⟨request, answer⟩ :: later) result
  | done {waits : Nat} {answer : Answer} {operation : Json}
      (h : answer.content request = .ok operation) (haccepted : IsAccepted operation)
      (hdone : SaysDone operation) :
      Waits request (waits + 1) [.exchanged ⟨request, answer⟩] (.ok operation)

/-- Whatever is done while waiting is one request, again and again. -/
theorem Waits.eq_exchanged {request : Request} {waits : Nat} {dealings : List Dealing}
    {result : Except Halt Json} (h : Waits request waits dealings result) {d : Dealing}
    (hd : d ∈ dealings) : ∃ answer, d = .exchanged ⟨request, answer⟩ := by
  induction h with
  | unfinished => cases hd
  | failed | rejected | done => exact ⟨_, List.mem_singleton.mp hd⟩
  | again _ _ _ _ ih =>
    rcases List.mem_cons.mp hd with rfl | hd
    · exact ⟨_, rfl⟩
    · exact ih hd

/-- Looking for errors has no dealings, and it comes to the operation exactly if it is accepted. -/
inductive Checks (operation : Json) : List Dealing → Except Halt Json → Prop
  | accepted (h : IsAccepted operation) : Checks operation [] (.ok operation)
  | rejected {f : Failure} (h : ¬ IsAccepted operation) :
      Checks operation [] (.error (.failure f))

open Job

theorem does_checked (operation : Json) :
    (ofCall (checked operation)).Does token (Checks operation) := by
  unfold checked
  rw [ofCall_bind]
  rcases errors_cases operation with ⟨errors, herrors, haccepted⟩ | ⟨fault, herrors, hrejected⟩
  all_goals rw [herrors]
  · refine (does_ofFault _).bind_exactly ?_
    cases hpresent : errors.truthy with
    | false =>
      refine (does_pure operation).mono ?_
      rintro _ _ ⟨rfl, rfl⟩
      exact .accepted (haccepted.mp hpresent)
    | true =>
      have hrejected : ¬ IsAccepted operation := by simp [← haccepted, hpresent]
      -- whichever way the first error is told, it ends with a failure
      have hthrown (x : Except Fault Failure) :
          (ofCall (Call.ofFault x >>= fun f => throw f)).Does token (Checks operation) := by
        rw [ofCall_bind]
        refine does_ofFault_bind _ (fun _ _ => .rejected hrejected) fun f _ => ?_
        refine (does_throw _).mono ?_
        rintro _ _ ⟨rfl, rfl⟩
        exact .rejected hrejected
      show (ofCall (Call.ofFault _ >>= _)).Does token _
      rw [ofCall_bind]
      refine does_ofFault_bind _ (fun _ _ => .rejected hrejected) fun first _ => ?_
      rw [ofCall_bind]
      refine does_ofFault_bind _ (fun _ _ => .rejected hrejected) fun name _ => ?_
      split
      · rw [ofCall_bind]
        exact (does_log _ _).bind_exactly (hthrown _)
      · exact hthrown _
  · refine (does_ofFault _).bind_error.mono ?_
    rintro _ _ ⟨rfl, rfl⟩
    exact .rejected hrejected

/-- One waits until a reply fails, is not accepted, or does not say that the operation goes on. -/
theorem does_awaitZone (client : Client) (l : ZoneLocator) (name : Json)
    (hnote : ∀ operation, (ofCall (note operation)).Does token (Exactly [] (.ok ())))
    (waits : Nat) :
    (client.awaitZone l name note waits).Does token
      (Waits (client.waitZoneOperation l name.text) waits) := by
  induction waits with
  | zero =>
    refine (does_throw .unfinished).mono ?_
    rintro _ _ ⟨rfl, rfl⟩
    exact .unfinished
  | succ waits ih =>
    rw [awaitZone]
    unfold waitZone
    show (ofCall (Call.log _ _ >>= fun _ => _) >>= _).Does token _
    rw [ofCall_bind, bind_assoc]
    refine (does_log _ _).bind_exactly ?_
    rw [ofCall_bind, bind_assoc]
    refine does_execute_bind client rfl (fun _ _ => .failed) fun answer operation hcontent => ?_
    refine (does_checked operation).bind ?_ ?_
    · rintro _ _ (_ | hrejected)
      exact .rejected hcontent hrejected
    · rintro _ _ (haccepted | _)
      refine does_ofFault_bind _ (fun fault hdone => ?_) fun done hdone => ?_
      · obtain ⟨⟨members, rfl, -⟩, -⟩ := haccepted
        cases hdone
      · split
        next hfinal =>
          refine (does_pure operation).mono ?_
          rintro _ _ ⟨rfl, rfl⟩
          exact .done hcontent haccepted ((saysDone_iff hdone).mp hfinal)
        next hgoing =>
          refine (hnote operation).bind_exactly ?_
          exact ih.mono fun later result =>
            .again hcontent haccepted (mt (saysDone_iff hdone).mpr hgoing)

end Client

end Fleet
