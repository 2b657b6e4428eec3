import NexaPos.System
import Mathlib.Logic.Function.Basic

/-!
# Concurrent checkouts of one token

Retries and double clicks are calls of `complete_sale` that carry one token and run at the same
time.  Each call is a transaction: what it writes is its own until it commits, and a unique
constraint on the token lets one uncommitted row stand at a time, behind which every other insert
waits.  Between its statements anything can happen to the other calls, so a call can find the
token at its first check, fail on the constraint and find it then, or write the sale itself.

`callStep` makes one move of one call.  A move that the call cannot make leaves everything as it
is, so every list of moves is an interleaving.
-/

namespace NexaPos

open Tx

/-! ## Calls -/

/-- A call that carries the token. -/
structure TokenCall (token : Text) where
  call : Call
  request : CheckoutRequest
  carries : cleanCheckoutToken request.checkoutToken = .ok (some token)

/-- How far a call has come. -/
inductive CallPhase
  | waiting
  | located (customer : Customer)
  /-- The first check found no sale. -/
  | unseen (customer : Customer)
  | prepared (p : PreparedSale)
  /-- The savepoint is released; the view is the transaction's own. -/
  | inserted (p : PreparedSale) (id : ℕ) (view : State)
  | written (id : ℕ) (view : State)
  /-- The savepoint is rolled back. -/
  | conflicted
  | returned (id : ℕ)
  | raised

/-- The next statement of a call, or its end. -/
inductive CallMove
  | locate
  | check
  | prepare
  /-- Reads that another commit cut in two. -/
  | prepareAcross (p : PreparedSale)
  | insert
  | finish
  /-- The answer to a commit can be lost. -/
  | commit (answered : Bool)
  | recover
  | abort

/-- The committed database, the call whose row of the token is not committed yet, and the calls. -/
structure Calls (ι : Type) where
  db : State
  uncommitted : Option ι := none
  phase : ι → CallPhase := fun _ => .waiting

variable {ι : Type} [DecidableEq ι] {token : Text}

/-- The call goes on. -/
def Calls.set (x : Calls ι) (i : ι) (phase : CallPhase) : Calls ι :=
  { x with phase := Function.update x.phase i phase }

/-- The call ends, and its uncommitted row is no longer in the way of others. -/
def Calls.close (x : Calls ι) (i : ι) (phase : CallPhase) : Calls ι :=
  { x.set i phase with uncommitted := if x.uncommitted = some i then none else x.uncommitted }

/-- One move of one call. -/
def callStep (calls : ι → TokenCall token) (x : Calls ι) (e : ι × CallMove) : Calls ι :=
  let i := e.1
  let c := (calls i).call
  let r := (calls i).request
  match e.2, x.phase i with
  | .locate, .waiting =>
    match checkoutContext c r x.db with
    | .ok customer => x.set i (.located customer)
    | .error _ => x.set i .raised
  | .check, .located customer =>
    match replayedSale c r (some token) x.db with
    | .ok none => x.set i (.unseen customer)
    | .ok (some id) => x.set i (.returned id)
    | .error _ => x.set i .raised
  | .prepare, .unseen customer =>
    match prepareSale c r customer (some token) x.db with
    | .ok p => x.set i (.prepared p)
    | .error _ => x.set i .raised
  | .prepareAcross p, .unseen _ =>
    if (saleWithToken x.db token).isSome ∧ p.token = some token then
      x.set i (.prepared p)
    else
      x
  | .insert, .prepared p =>
    if x.uncommitted.isSome then
      x
    else
      match (createSale c r p).run x.db with
      | .ok (id, view) => { x.set i (.inserted p id view) with uncommitted := some i }
      | .error .integrity => x.set i .conflicted
      | .error _ => x.set i .raised
  | .finish, .inserted p id view =>
    match (finishSale c r p id).run view with
    | .ok (_, view) => x.set i (.written id view)
    | .error _ => x.close i .raised
  | .commit answered, .written id view =>
    { x.close i (if answered then .returned id else .raised) with db := view }
  | .recover, .conflicted =>
    match replayAfterConflict c r (some token) x.db with
    | .ok id => x.set i (.returned id)
    | .error _ => x.set i .raised
  | .abort, .returned _ => x
  | .abort, _ => x.close i .raised
  | _, _ => x

/-! ## What every interleaving keeps -/

/-- The sale was prepared on this database. -/
def PreparedOn (call : TokenCall token) (s : State) (p : PreparedSale) : Prop :=
  ∃ customer, checkoutContext call.call call.request s = .ok customer ∧
    prepareSale call.call call.request customer (some token) s = .ok p

/-- One call wrote its sale, and nothing else happened. -/
def SaleDone (call : TokenCall token) (s : State) (id : ℕ) (db : State) : Prop :=
  ∃ p number items, SaleMade call.call call.request s db id p number items ∧
    p.token = some token

/-- What holds of a call in each phase; `s` is the database at the start. -/
def PhaseKept (calls : ι → TokenCall token) (s db : State) (uncommitted : Option ι) (i : ι) :
    CallPhase → Prop
  | .located customer => db = s →
      checkoutContext (calls i).call (calls i).request s = .ok customer
  | .unseen customer => db = s →
      checkoutContext (calls i).call (calls i).request s = .ok customer
  | .prepared p => p.token = some token ∧
      (db = s → saleWithToken s token = none → PreparedOn (calls i) s p)
  | .inserted p id view => uncommitted = some i ∧ db = s ∧ PreparedOn (calls i) s p ∧
      p.token = some token ∧ Runs (createSale (calls i).call (calls i).request p) s id view
  | .written id view => uncommitted = some i ∧ db = s ∧ SaleDone (calls i) s id view
  | .returned id => saleWithToken db token = some id
  | _ => True

/-- At most one call has completed its sale, and every call is where it should be. -/
structure CallsKept (calls : ι → TokenCall token) (s : State) (x : Calls ι) : Prop where
  once : x.db = s ∨ ∃ i id, SaleDone (calls i) s id x.db
  phases : ∀ i, PhaseKept calls s x.db x.uncommitted i (x.phase i)

/-- The new sale is the one the token finds. -/
lemma SaleDone.saleWithToken_eq {call : TokenCall token} {s db : State} {id : ℕ}
    (h : SaleDone call s id db) :
    saleWithToken s token = none ∧ saleWithToken db token = some id := by
  obtain ⟨p, number, items, hmade, htoken⟩ := h
  obtain ⟨totalCost, sequences, hsales⟩ := hmade.sales
  have hnew : saleWithToken s token = none := hmade.token_new token htoken
  have hrow : (settledSale call.request p totalCost
      (saleRow call.call call.request p number)).checkoutToken = some token := htoken
  refine ⟨hnew, ?_⟩
  unfold saleWithToken at hnew ⊢
  rw [hsales]
  dsimp only
  rw [List.findIdx?_append, hnew, hmade.id_eq]
  simp [hrow]

section Moves

omit [DecidableEq ι] in
lemma saleDone_of_runs {call : TokenCall token} {s u t : State} {p : PreparedSale} {id : ℕ}
    (hprepared : PreparedOn call s p) (htoken : p.token = some token)
    (hcreate : Runs (createSale call.call call.request p) s id u)
    (hfinish : Runs (finishSale call.call call.request p id) u ⟨⟩ t) :
    SaleDone call s id t := by
  obtain ⟨customer, hcontext, hprepare⟩ := hprepared
  have hclean : cleanCheckoutToken call.request.checkoutToken = .ok p.token := by
    rw [htoken]
    exact call.carries
  rw [← htoken] at hprepare
  obtain ⟨number, items, hmade⟩ := saleMade_of_runs hcontext hclean hprepare hcreate hfinish
  exact ⟨p, number, items, hmade, htoken⟩

variable {calls : ι → TokenCall token} {s : State} {x : Calls ι} {i : ι}

/-- A call goes on; the others are where they were. -/
lemma CallsKept.set (h : CallsKept calls s x) {phase : CallPhase}
    (hphase : PhaseKept calls s x.db x.uncommitted i phase) : CallsKept calls s (x.set i phase) := by
  refine ⟨h.once, fun j => ?_⟩
  unfold Calls.set
  dsimp only
  by_cases hj : j = i
  · subst hj
    rw [Function.update_self]
    exact hphase
  · rw [Function.update_of_ne hj]
    exact h.phases j

/-- A call that ends frees the constraint only for what it held itself. -/
lemma CallsKept.close (h : CallsKept calls s x) : CallsKept calls s (x.close i .raised) := by
  refine ⟨h.once, fun j => ?_⟩
  unfold Calls.close Calls.set
  dsimp only
  by_cases hj : j = i
  · subst hj
    rw [Function.update_self]
    trivial
  · rw [Function.update_of_ne hj]
    have hother : ∀ {o : Option ι}, o = some j → (if o = some i then none else o) = some j := by
      rintro _ rfl
      rw [if_neg]
      exact fun hsame => hj (Option.some.inj hsame)
    have hphase := h.phases j
    cases hphase_eq : x.phase j <;> rw [hphase_eq] at hphase <;>
      first
      | exact hphase
      | exact ⟨hother hphase.1, hphase.2⟩

/-- The insert of a token nobody has, on a database that is still the one at the start. -/
lemma CallsKept.insert (h : CallsKept calls s x) {p : PreparedSale} {id : ℕ} {view : State}
    (hfree : x.uncommitted = none) (hphase : x.phase i = .prepared p)
    (hcreate : Runs (createSale (calls i).call (calls i).request p) x.db id view) :
    CallsKept calls s { x.set i (.inserted p id view) with uncommitted := some i } := by
  have hprepared := h.phases i
  rw [hphase] at hprepared
  obtain ⟨htoken, hprepared⟩ := hprepared
  have hnew : saleWithToken x.db token = none := by
    obtain ⟨number, u, hnumber, -, hnew, -⟩ := runs_createSale hcreate
    obtain ⟨branch, last, -, -, -, -, rfl⟩ := runs_nextInvoiceNumber hnumber
    exact hnew token htoken
  have hdb : x.db = s := by
    rcases h.once with hsame | ⟨j, id', hdone⟩
    · exact hsame
    · rw [hdone.saleWithToken_eq.2] at hnew
      exact nomatch hnew
  refine ⟨h.once, fun j => ?_⟩
  unfold Calls.set
  dsimp only
  by_cases hj : j = i
  · subst hj
    rw [Function.update_self]
    rw [hdb] at hcreate hnew
    exact ⟨rfl, hdb, hprepared hdb hnew, htoken, hcreate⟩
  · rw [Function.update_of_ne hj]
    have hphase := h.phases j
    rw [hfree] at hphase
    cases hphase_eq : x.phase j <;> rw [hphase_eq] at hphase <;>
      first
      | exact hphase
      | exact absurd hphase.1 (by simp)

/-- The commit of the one call that holds the constraint. -/
lemma CallsKept.commit (h : CallsKept calls s x) {id : ℕ} {view : State} (answered : Bool)
    (hphase : x.phase i = .written id view) :
    CallsKept calls s
      { x.close i (if answered then .returned id else .raised) with db := view } := by
  have hwritten := h.phases i
  rw [hphase] at hwritten
  obtain ⟨hheld, hdb, hdone⟩ := hwritten
  obtain ⟨hnew, hfound⟩ := hdone.saleWithToken_eq
  have hchanged : view ≠ s := by
    rintro rfl
    rw [hnew] at hfound
    exact nomatch hfound
  refine ⟨.inr ⟨i, id, hdone⟩, fun j => ?_⟩
  unfold Calls.close Calls.set
  dsimp only
  by_cases hj : j = i
  · subst hj
    rw [Function.update_self]
    cases answered
    · trivial
    · exact hfound
  · rw [Function.update_of_ne hj]
    have hphase := h.phases j
    have hne : x.uncommitted ≠ some j := by
      rw [hheld]
      exact fun hsame => hj (Option.some.inj hsame).symm
    cases hphase_eq : x.phase j <;> rw [hphase_eq] at hphase
    case located => exact fun hsame => absurd hsame hchanged
    case unseen => exact fun hsame => absurd hsame hchanged
    case prepared => exact ⟨hphase.1, fun hsame => absurd hsame hchanged⟩
    case inserted => exact absurd hphase.1 hne
    case written => exact absurd hphase.1 hne
    case returned =>
      change saleWithToken x.db token = _ at hphase
      rw [hdb, hnew] at hphase
      exact nomatch hphase
    all_goals trivial

end Moves

/-- Every move of every call. -/
lemma callsKept_step (calls : ι → TokenCall token) {s : State} (x : Calls ι) (e : ι × CallMove)
    (h : CallsKept calls s x) : CallsKept calls s (callStep calls x e) := by
  obtain ⟨i, move⟩ := e
  have hi := h.phases i
  have hraised : CallsKept calls s (x.set i .raised) := h.set trivial
  unfold callStep
  dsimp only
  split
  case h_1 hphase =>
    split
    · rename_i customer hcontext
      refine h.set fun hdb => ?_
      rw [hdb] at hcontext
      exact hcontext
    · exact hraised
  case h_2 customer hphase =>
    rw [hphase] at hi
    split
    · exact h.set hi
    · rename_i id hreplay
      obtain ⟨token', sale, hclean, hfound, -⟩ := replayedSale_some (calls i).carries hreplay
      rw [(calls i).carries] at hclean
      obtain rfl := Option.some.inj (Except.ok.inj hclean)
      exact h.set hfound
    · exact hraised
  case h_3 customer hphase =>
    rw [hphase] at hi
    split
    · rename_i p hprepare
      obtain ⟨-, -, -, -, -, -, -, htoken⟩ := prepareSale_ok hprepare
      refine h.set ⟨htoken, fun hdb _ => ⟨customer, hi hdb, ?_⟩⟩
      rw [← hdb]
      exact hprepare
    · exact hraised
  case h_4 p customer hphase =>
    split
    · rename_i htaken
      refine h.set ⟨htaken.2, fun hdb hnew => ?_⟩
      rw [hdb, hnew] at htaken
      exact nomatch htaken.1
    · exact h
  case h_5 p hphase =>
    split
    · exact h
    · rename_i hfree
      rw [Option.not_isSome_iff_eq_none] at hfree
      split
      · rename_i id view hcreate
        exact h.insert hfree hphase hcreate
      · exact h.set trivial
      · exact hraised
  case h_6 p id view hphase =>
    rw [hphase] at hi
    obtain ⟨hheld, hdb, hprepared, htoken, hcreate⟩ := hi
    split
    · rename_i view' hfinish
      exact h.set ⟨hheld, hdb, saleDone_of_runs hprepared htoken hcreate hfinish⟩
    · exact h.close
  case h_7 answered id view hphase => exact h.commit answered hphase
  case h_8 hphase =>
    split
    · rename_i id hreplay
      obtain ⟨token', sale, hclean, hfound, -⟩ := replayAfterConflict_ok (calls i).carries hreplay
      rw [(calls i).carries] at hclean
      obtain rfl := Option.some.inj (Except.ok.inj hclean)
      exact h.set hfound
    · exact hraised
  case h_9 => exact h
  case h_10 => exact h.close
  case h_11 => exact h

/-- The unique constraint on the token. -/
def TokenUnique (s : State) (token : Text) : Prop :=
  (s.sales.sales.filter fun x => x.checkoutToken = some token).length ≤ 1

/-- **Checkout retries.**  In every interleaving of any number of calls with one token, the
database is the one at the start or the one after exactly one of the calls completed its sale
there; at most one sale carries the token; and every call that returns, returns that sale. -/
theorem checkout_once (calls : ι → TokenCall token) {s : State} (hunique : TokenUnique s token)
    (moves : List (ι × CallMove)) :
    ((Trace.run (callStep calls) { db := s } moves).db = s ∨
      ∃ i p number items id, SaleMade (calls i).call (calls i).request s
        (Trace.run (callStep calls) { db := s } moves).db id p number items) ∧
    TokenUnique (Trace.run (callStep calls) { db := s } moves).db token ∧
    ∀ i id, (Trace.run (callStep calls) { db := s } moves).phase i = .returned id →
      saleWithToken (Trace.run (callStep calls) { db := s } moves).db token = some id := by
  have hkept : CallsKept calls s (Trace.run (callStep calls) { db := s } moves) := by
    refine Trace.invariant (I := CallsKept calls s) (callsKept_step calls) ?_ moves
    exact ⟨.inl rfl, fun i => trivial⟩
  set x := Trace.run (callStep calls) { db := s } moves with hx
  refine ⟨?_, ?_, fun i id hphase => ?_⟩
  · rcases hkept.once with hsame | ⟨i, id, p, number, items, hmade, -⟩
    · exact .inl hsame
    · exact .inr ⟨i, p, number, items, id, hmade⟩
  · rcases hkept.once with hsame | ⟨i, id, hdone⟩
    · rw [hsame]
      exact hunique
    · obtain ⟨hnew, -⟩ := hdone.saleWithToken_eq
      obtain ⟨p, number, items, hmade, -⟩ := hdone
      obtain ⟨totalCost, sequences, hsales⟩ := hmade.sales
      have hnone : (s.sales.sales.filter fun x => x.checkoutToken = some token) = [] := by
        refine List.filter_eq_nil_iff.mpr fun row hrow => ?_
        have hfalse := List.findIdx?_eq_none_iff.mp hnew row hrow
        simpa using hfalse
      unfold TokenUnique
      rw [hsales]
      dsimp only
      rw [List.filter_append, hnone, List.nil_append]
      exact List.length_filter_le _ _
  · have hreturned := hkept.phases i
    rw [hphase] at hreturned
    exact hreturned

/-- A double click on a cart of one piece. -/
def clicked : TokenCall ['t'] where
  call := Shop.call
  request := { Shop.cart 1 [⟨0, 20⟩] with checkoutToken := some ['t'] }
  carries := by decide +kernel

/-- Both clicks pass the first check; the second waits on the constraint and fails on it. -/
def doubleClick : List (Bool × CallMove) := [
  (true, .locate), (false, .locate), (true, .check), (false, .check), (true, .prepare),
  (false, .prepare), (true, .insert), (false, .insert), (true, .finish), (true, .commit true),
  (false, .insert), (false, .recover)]

theorem checkout_once_run :
    TokenUnique (Trace.run (callStep fun _ => clicked)
      { db := history (Shop.stocked 20000) } doubleClick).db ['t'] :=
  (checkout_once (fun _ => clicked) (by unfold TokenUnique; decide +kernel) doubleClick).2.1

example : (Trace.run (callStep fun _ => clicked)
    { db := history (Shop.stocked 20000) } doubleClick).db.sales.sales.length = 1 := by
  decide +kernel

end NexaPos
