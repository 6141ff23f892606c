import IpfsCluster.Proofs.Billing.Payments

/-! # Checks of pending payments

The checker works with copies of payments, which others update meanwhile. In an orderly run no payment succeeds after
its time or while it is about to be failed or dropped; then the stage of the checker always knows enough about the
storage.
-/

namespace IpfsCluster.Proofs.Billing

open Golang Machine Model.Billing Option AList PaymentService

variable {World : Type} {process : PaymentProvider World} {s next : PaymentService} {event : PaymentEvent World}

def EverSucceeded (s : PaymentService) (paymentID : String) : Prop := Stored.payment paymentID .succeeded ∈ s.log

def EverPaid (s : PaymentService) (invoiceID : String) : Prop := Stored.invoice invoiceID .paid ∈ s.log

def listed : CheckStage → List PendingPayment
  | .idle => []
  | .looking rest => rest
  | .timedOut pending rest | .failing _ pending rest | .reading pending rest | .settling _ pending rest
  | .removing pending rest => pending :: rest

/-- The checker is about to fail a payment, or to remove its entry without the invoice having been paid. -/
def Dropping (s : PaymentService) (paymentID : String) : Prop :=
  match s.checking with
  | .timedOut pending _ | .failing _ pending _ => pending.paymentID = paymentID
  | .removing pending _ => pending.paymentID = paymentID ∧ ¬ EverPaid s pending.invoiceID
  | _ => False

/-- What the next step of the checker relies on: a payment that has timed out has never succeeded, and an invoice that
was not paid before can be read and stored. -/
def CheckRelies (s : PaymentService) (fault : Option String) : Prop :=
  match s.checking with
  | .looking (pending :: _) => s.now.after pending.timeoutAt = true → ¬ EverSucceeded s pending.paymentID
  | .settling .getInvoice pending _ =>
    EverPaid s pending.invoiceID ∨ fault = none ∧ (s.storage.invoices.lookup pending.invoiceID).isSome = true
  | .settling (.storeInvoice _) pending _ => EverPaid s pending.invoiceID ∨ fault = none
  | _ => True

/-- The condition on a step in the state before it. -/
structure Orderly (s : PaymentService) (event : PaymentEvent World) : Prop where
  /-- A payment does not become successful while the checker is about to drop it. -/
  inTime : ∀ payment, written s event = some payment → payment.status = .succeeded → ¬ Dropping s payment.id
  /-- A payment that is tracked is a new one. -/
  tracksNew : ∀ n fault world call result, event = .callStep n fault world → s.calls.lookup n = some call →
    call.stage = .track result → s.pendingPayments.lookup result.paymentID = none ∧
      ∀ pending ∈ listed s.checking, pending.paymentID ≠ result.paymentID
  checks : ∀ fault, event = .checkStep fault → CheckRelies s fault
  /-- The clean-up meets no payment that has succeeded, unless its invoice was paid. -/
  cleans : event = .cleanup → ∀ id entry payment, s.pendingPayments.lookup id = some entry → s.isStale entry = true →
    s.storage.payments.lookup id = some payment → payment.status = .succeeded → EverPaid s entry.invoiceID

def isRoutine : PaymentEvent World → Prop
  | .check _ | .checkStep _ | .cleanup => True
  | _ => False

/-- A step does not overwrite a payment that was stored as succeeded as failed, and does not drop the entry of one that
is stored as succeeded, unless the invoice was stored as paid before. -/
structure Respects (s next : PaymentService) : Prop where
  keeps : ∀ id payment', EverSucceeded s id → next.storage.payments.lookup id = some payment' →
    payment'.status = .failed → ∃ payment, s.storage.payments.lookup id = some payment ∧ payment.status = .failed
  drops : ∀ id entry payment, s.pendingPayments.lookup id = some entry → next.pendingPayments.lookup id = none →
    s.storage.payments.lookup id = some payment → payment.status = .succeeded → EverPaid s entry.invoiceID

def UpdateKnows (s : PaymentService) (invoiceID : String) : UpdateStage → Prop
  | .getInvoice => True
  | .getPayment invoice | .storeInvoice invoice => invoice.id = invoiceID ∧ invoice.status = .paid
  | .done _ => EverPaid s invoiceID

/-- What the stage of the checker knows. -/
def StageKnows (s : PaymentService) : CheckStage → Prop
  | .timedOut pending _ => ¬ EverSucceeded s pending.paymentID
  | .failing payment pending _ =>
    payment.id = pending.paymentID ∧ payment.status = .failed ∧ ¬ EverSucceeded s pending.paymentID
  | .settling stage pending _ => UpdateKnows s pending.invoiceID stage
  | .removing pending _ => ∀ payment, s.storage.payments.lookup pending.paymentID = some payment →
    payment.status = .succeeded → EverPaid s pending.invoiceID
  | _ => True

/-- The log covers the storage, and the checker's list and stage fit the service. -/
structure Tidy (s : PaymentService) : Prop where
  covers : ∀ id payment, s.storage.payments.lookup id = some payment → payment.status = .succeeded → EverSucceeded s id
  keyed : ∀ id entry, s.pendingPayments.lookup id = some entry → entry.paymentID = id
  agrees : ∀ pending ∈ listed s.checking, ∀ entry, s.pendingPayments.lookup pending.paymentID = some entry →
    entry.invoiceID = pending.invoiceID
  knows : StageKnows s s.checking

variable {payment : Payment} {invoiceID paymentID : String}

section

variable {st : PaymentStorage} {fault : Option String}

theorem getInvoice_eq_ok {invoice : Invoice} (read : st.getInvoice fault invoiceID = .ok invoice) :
    fault = none ∧ st.invoices.lookup invoiceID = some invoice := by
  unfold PaymentStorage.getInvoice at read
  split at read
  · cases read
  · split at read
    · cases read
    next found =>
      cases read
      exact ⟨rfl, found⟩

end

variable {id : String}

section

variable {stored : Option Payment}

theorem Wrote.lookup (wrote : Wrote s next stored) (found : next.storage.payments.lookup id = some payment) :
    (stored = some payment ∧ payment.id = id) ∨ s.storage.payments.lookup id = some payment := by
  rw [wrote.payments] at found
  cases stored with
  | none => exact .inr found
  | some new =>
    rcases lookup_insert_eq_some found with ⟨same, rfl⟩ | ⟨-, old⟩
    · exact .inl ⟨rfl, same.symm⟩
    · exact .inr old

theorem Wrote.covers (wrote : Wrote s next stored)
    (covers : ∀ id payment, s.storage.payments.lookup id = some payment → payment.status = .succeeded →
      EverSucceeded s id) (id : String) (payment : Payment) (found : next.storage.payments.lookup id = some payment)
    (succeeded : payment.status = .succeeded) : EverSucceeded next id := by
  rcases wrote.lookup found with ⟨here, rfl⟩ | before
  · exact (wrote.log _ _).mpr (.inr ⟨payment, here, rfl, succeeded⟩)
  · exact wrote.kept (covers id payment before succeeded)

theorem StageKnows.wrote (wrote : Wrote s next stored)
    (inTime : ∀ payment, stored = some payment → payment.status = .succeeded → ¬ Dropping s payment.id)
    (knows : StageKnows s s.checking) : StageKnows next s.checking := by
  have never {id : String} (dropping : Dropping s id) (unsuccessful : ¬ EverSucceeded s id) : ¬ EverSucceeded next id := by
    intro succeeded
    rcases (wrote.log id .succeeded).mp succeeded with before | ⟨payment, here, rfl, status⟩
    · exact unsuccessful before
    · exact inTime payment here status dropping
  unfold Dropping at inTime never
  cases here : s.checking with
  | idle => trivial
  | looking rest => trivial
  | reading pending rest => trivial
  | timedOut pending rest =>
    rw [here] at knows never
    exact never rfl knows
  | failing payment pending rest =>
    rw [here] at knows never
    exact ⟨knows.1, knows.2.1, never rfl knows.2.2⟩
  | settling stage pending rest =>
    rw [here] at knows
    cases stage with
    | getInvoice => trivial
    | getPayment | storeInvoice => exact knows
    | done err => exact wrote.kept knows
  | removing pending rest =>
    rw [here] at knows inTime
    intro payment found status
    rcases wrote.lookup found with ⟨new, same⟩ | before
    · by_contra unpaid
      exact inTime payment new status ⟨same.symm, fun paid => unpaid (wrote.kept paid)⟩
    · exact wrote.kept (knows payment before status)

theorem Tidy.moved (tidy : Tidy s) (wrote : Wrote s next stored) {stage : CheckStage}
    (shrinks : ∀ id entry, next.pendingPayments.lookup id = some entry → s.pendingPayments.lookup id = some entry)
    (fewer : ∀ pending ∈ listed stage, pending ∈ listed s.checking) (knows : StageKnows next stage) :
    Tidy { next with checking := stage } where
  covers := wrote.covers tidy.covers
  keyed id entry found := tidy.keyed id entry (shrinks id entry found)
  agrees pending member entry found := tidy.agrees pending (fewer pending member) entry (shrinks _ _ found)
  knows := knows

theorem Tidy.of_wrote (tidy : Tidy s) (wrote : Wrote s next stored) (sameStage : next.checking = s.checking)
    (shrinks : ∀ id entry, next.pendingPayments.lookup id = some entry → s.pendingPayments.lookup id = some entry)
    (inTime : ∀ payment, stored = some payment → payment.status = .succeeded → ¬ Dropping s payment.id) :
    Tidy next := by
  have moved := tidy.moved wrote shrinks (fun _ member => member) (tidy.knows.wrote wrote inTime)
  rw [← sameStage] at moved
  exact moved

theorem Respects.of_same (samePayments : next.storage.payments = s.storage.payments)
    (samePending : next.pendingPayments = s.pendingPayments) : Respects s next where
  keeps id payment' _ found failed := ⟨payment', samePayments ▸ found, failed⟩
  drops id entry payment found gone := by
    rw [samePending, found] at gone
    cases gone

end

section

variable {fault : Option String} {stage : CheckStage}

theorem updateKnows_step {here : UpdateStage} (knows : UpdateKnows s invoiceID here)
    (canRead : here = .getInvoice → EverPaid s invoiceID ∨ fault = none ∧ (s.storage.invoices.lookup invoiceID).isSome = true)
    (canStore : ∀ invoice, here = .storeInvoice invoice → EverPaid s invoiceID ∨ fault = none) :
    UpdateKnows (s.updateInvoicePaymentStatus fault invoiceID paymentID here).1 invoiceID
      (s.updateInvoicePaymentStatus fault invoiceID paymentID here).2 := by
  cases here with
  | getInvoice =>
    rw [updateInvoicePaymentStatus]
    cases read : s.storage.getInvoice fault invoiceID with
    | error err =>
      refine (canRead rfl).resolve_right ?_
      rintro ⟨rfl, present⟩
      obtain ⟨invoice, found⟩ := isSome_iff_exists.mp present
      rw [PaymentStorage.getInvoice, found] at read
      cases read
    | ok invoice =>
      have named := s.storage.id_of_invoice _ _ (getInvoice_eq_ok read).2
      dsimp only
      split <;> exact ⟨named, rfl⟩
  | getPayment invoice =>
    rw [updateInvoicePaymentStatus]
    cases s.storage.getPayment fault paymentID with
    | error | ok => exact knows
  | storeInvoice invoice =>
    obtain ⟨rfl, paid⟩ := knows
    cases fault with
    | none =>
      change Stored.invoice invoice.id .paid ∈ Stored.invoice invoice.id invoice.status :: s.log
      rw [paid]
      exact List.mem_cons_self
    | some err => exact (canStore invoice rfl).resolve_right (some_ne_none err)
  | done err => exact knows

theorem stageKnows_afterSettling {pending : PendingPayment} {rest : List PendingPayment} {here : UpdateStage}
    (knows : UpdateKnows s pending.invoiceID here) : StageKnows s (afterSettling pending rest here) := by
  cases here with
  | done err => exact fun _ _ _ => knows
  | _ => exact knows

theorem listed_afterSettling (pending : PendingPayment) (rest : List PendingPayment) (here : UpdateStage) :
    listed (afterSettling pending rest here) = pending :: rest := by
  cases here <;> rfl

theorem Tidy.not_succeeded (tidy : Tidy s) (never : ¬ EverSucceeded s id)
    (found : s.storage.payments.lookup id = some payment) : payment.status ≠ .succeeded :=
  fun succeeded => never (tidy.covers id payment found succeeded)

theorem CheckMove.listed_subset {here : CheckStage} (move : CheckMove s fault here next stage) :
    ∀ pending ∈ listed stage, pending ∈ listed here := by
  intro other member
  cases move with
  | finish => cases member
  | skip | wait | remove => exact List.mem_cons_of_mem _ member
  | update => rwa [listed_afterSettling] at member
  | _ => exact member

theorem CheckMove.shrinks {here : CheckStage} (move : CheckMove s fault here next stage) (id : String)
    (entry : PendingPayment) (found : next.pendingPayments.lookup id = some entry) :
    s.pendingPayments.lookup id = some entry := by
  cases move with
  | store => rwa [(onlyStorage_storePayment ..).pendingPayments] at found
  | update => rwa [(onlyStorage_update ..).pendingPayments] at found
  | remove => exact (lookup_erase_eq_some found).2
  | _ => exact found

theorem Wrote.lookup_of_ne (wrote : Wrote s next (unlessFault fault (some payment))) {found : Payment}
    (there : next.storage.payments.lookup id = some found) (other : found ≠ payment) :
    s.storage.payments.lookup id = some found := by
  refine (wrote.lookup there).resolve_left ?_
  rintro ⟨stored, _⟩
  cases fault with
  | some err => cases stored
  | none => exact other (some.inj stored).symm

theorem Tidy.checkMove (tidy : Tidy s) (relies : CheckRelies s fault) (move : CheckMove s fault s.checking next stage) :
    Tidy { next with checking := stage } := by
  refine tidy.moved move.wrote move.shrinks move.listed_subset ?_
  have knows := tidy.knows
  unfold CheckRelies at relies
  generalize s.checking = here at move relies knows
  cases move with
  | expire late => exact relies late
  | lose lost => exact fun payment found succeeded => (tidy.not_succeeded knows found succeeded).elim
  | fail read becomes =>
    obtain ⟨metadata, _, rfl⟩ := map_eq_some_iff.mp becomes
    have named := s.storage.id_of_payment _ _ (getPayment_eq_ok read).2
    exact ⟨named, rfl, knows⟩
  | store =>
    rename_i payment pending rest
    obtain ⟨_, failed, never⟩ := knows
    intro payment' found succeeded
    have other : payment' ≠ payment := by
      rintro rfl
      rw [failed] at succeeded
      cases succeeded
    exact (tidy.not_succeeded never ((wrote_storePayment fault payment).lookup_of_ne found other) succeeded).elim
  | drop read inactive =>
    intro payment found succeeded
    obtain rfl := some.inj ((getPayment_eq_ok read).2.symm.trans found)
    exact (inactive (.inr succeeded)).elim
  | update =>
    refine stageKnows_afterSettling (updateKnows_step knows ?_ ?_)
    · rintro rfl
      exact relies
    · rintro invoice rfl
      exact relies
  | _ => trivial

theorem Tidy.respects_checkMove (tidy : Tidy s) (move : CheckMove s fault s.checking next stage) :
    Respects s { next with checking := stage } := by
  have knows := tidy.knows
  generalize here : s.checking = before at move knows
  cases move with
  | store =>
    rename_i payment pending rest
    obtain ⟨named, _, never⟩ := knows
    have wrote := wrote_storePayment (s := s) fault payment
    refine ⟨fun id payment' succeeded found failed => ⟨payment', ?_, failed⟩, fun id entry payment' there gone => ?_⟩
    · rcases wrote.lookup found with ⟨stored, rfl⟩ | old
      · refine wrote.lookup_of_ne found ?_
        rintro rfl
        exact never (named ▸ succeeded)
      · exact old
    · rw [show (s.storePayment fault payment).pendingPayments = s.pendingPayments from
        (onlyStorage_storePayment ..).pendingPayments, there] at gone
      cases gone
  | update => exact .of_same (wrote_update ..).payments (onlyStorage_update ..).pendingPayments
  | remove =>
    rename_i pending rest
    refine ⟨fun id payment' _ found failed => ⟨payment', found, failed⟩, fun id entry payment found gone there succeeded => ?_⟩
    by_cases same : id = pending.paymentID
    · subst same
      have member : pending ∈ listed s.checking := by
        rw [here]
        exact List.mem_cons_self
      rw [tidy.agrees pending member entry found]
      exact knows payment there succeeded
    · rw [lookup_erase_ne same, found] at gone
      cases gone
  | _ => exact .of_same rfl rfl

end

section

theorem lookup_foldl_erase {γ : Type} (drops : Sigma (fun _ : String => γ) → Bool) (keys : List (Sigma fun _ : String => γ))
    (m : AList fun _ : String => γ) (id : String) :
    (keys.foldl (fun left entry => if drops entry then left.erase entry.1 else left) m).lookup id =
      if ∃ entry ∈ keys, drops entry = true ∧ entry.1 = id then none else m.lookup id := by
  induction keys generalizing m with
  | nil => simp
  | cons entry rest ih =>
    rw [List.foldl_cons, ih]
    simp only [List.exists_mem_cons_iff]
    by_cases later : ∃ other ∈ rest, drops other = true ∧ other.1 = id
    · rw [if_pos later, if_pos (.inr later)]
    · rw [if_neg later]
      cases dropped : drops entry with
      | false =>
        rw [if_neg (not_or.mpr ⟨fun both => Bool.false_ne_true both.1, later⟩)]
        rfl
      | true =>
        by_cases same : entry.1 = id
        · rw [if_pos (Or.inl ⟨rfl, same⟩), if_pos rfl, same, lookup_erase]
        · rw [if_neg (not_or.mpr ⟨fun both => same both.2, later⟩), if_pos rfl, lookup_erase_ne (Ne.symm same)]

variable {entry : PendingPayment}

theorem lookup_cleanup (found : s.pendingPayments.lookup id = some entry) :
    s.cleanupExpiredPayments.pendingPayments.lookup id = if s.isStale entry then none else some entry := by
  refine (lookup_foldl_erase (fun entry => s.isStale entry.2) s.pendingPayments.entries s.pendingPayments id).trans ?_
  rw [found]
  refine if_congr ?_ rfl rfl
  constructor
  · rintro ⟨⟨key, other⟩, member, stale, rfl⟩
    obtain rfl := some.inj (found.symm.trans (mem_entries_iff.mp member))
    exact stale
  · intro stale
    exact ⟨⟨id, entry⟩, mem_entries_iff.mpr found, stale, rfl⟩

theorem lookup_of_lookup_cleanup (left : s.cleanupExpiredPayments.pendingPayments.lookup id = some entry) :
    s.pendingPayments.lookup id = some entry := by
  cases found : s.pendingPayments.lookup id with
  | none =>
    have absent := lookup_foldl_erase (fun entry => s.isStale entry.2) s.pendingPayments.entries s.pendingPayments id
    rw [found, ite_self] at absent
    rw [show s.cleanupExpiredPayments.pendingPayments.lookup id = none from absent] at left
    cases left
  | some other =>
    rw [lookup_cleanup found] at left
    split at left
    · cases left
    · exact left

variable {fault : Option String} {world : World} {here stage : CallStage}

theorem CallMove.pendingPayments {call : InvoiceCall} (move : CallMove process s fault world call here next stage) :
    next.pendingPayments = s.pendingPayments ∨ ∃ result entry, here = .track result ∧
      entry.paymentID = result.paymentID ∧ next.pendingPayments = s.pendingPayments.insert result.paymentID entry := by
  cases move with
  | store => exact .inl (onlyStorage_storePayment ..).pendingPayments
  | track => exact .inr ⟨_, _, rfl, rfl, rfl⟩
  | update => exact .inl (onlyStorage_update ..).pendingPayments
  | _ => exact .inl rfl

variable (tidy : Tidy s)

include tidy

theorem Tidy.tracked (samePayments : next.storage.payments = s.storage.payments) (kept : s.log ⊆ next.log)
    (sameStage : next.checking = s.checking) (knows : StageKnows next s.checking)
    (isEntry : entry.paymentID = paymentID) (tracks : next.pendingPayments = s.pendingPayments.insert paymentID entry)
    (unlisted : ∀ pending ∈ listed s.checking, pending.paymentID ≠ paymentID) : Tidy next where
  covers id payment found succeeded := kept (tidy.covers id payment (samePayments ▸ found) succeeded)
  keyed id other found := by
    rw [tracks] at found
    rcases lookup_insert_eq_some found with ⟨rfl, rfl⟩ | ⟨-, old⟩
    · exact isEntry
    · exact tidy.keyed id other old
  agrees pending member other found := by
    rw [sameStage] at member
    rw [tracks, lookup_insert_ne (unlisted pending member)] at found
    exact tidy.agrees pending member other found
  knows := by rwa [sameStage]

theorem Tidy.callMove {n : ℕ} {call : InvoiceCall} {after : PaymentService}
    (orderly : Orderly s (.callStep n fault world)) (started : s.calls.lookup n = some call)
    (move : CallMove process s fault world call call.stage after stage)
    (wrote : Wrote s { after with calls := s.calls.insert n { call with stage := stage } }
      (written s (.callStep n fault world))) :
    Tidy { after with calls := s.calls.insert n { call with stage := stage } } := by
  rcases move.pendingPayments with samePending | ⟨result, entry, here, isEntry, tracks⟩
  · exact tidy.of_wrote wrote move.checking (fun id entry found => samePending ▸ found) orderly.inTime
  · have nothing : written s (.callStep n fault world) = none := by
      rw [written, started, bind_some, callWrites, here, unlessFault_none_right]
    refine tidy.tracked ?_ wrote.kept move.checking (tidy.knows.wrote wrote orderly.inTime) isEntry tracks
      (orderly.tracksNew n fault world call result rfl started here).2
    rw [wrote.payments, nothing]
    rfl

theorem Tidy.step (orderly : Orderly s event) (step : (paymentMachine process).step s event = some next) :
    Tidy next := by
  have wrote := wrote_of_step step
  cases paymentStep_of_step step with
  | callStep started move => exact tidy.callMove orderly started move wrote
  | check =>
    refine ⟨tidy.covers, tidy.keyed, fun pending member entry found => ?_, trivial⟩
    obtain ⟨⟨id, other⟩, visited, rfl⟩ := List.mem_map.mp member
    rw [MapOrder.mem_visit, mem_entries_iff] at visited
    dsimp only at found
    rw [tidy.keyed id other visited, visited] at found
    rw [some.inj found]
  | checkStep move => exact tidy.checkMove (orderly.checks _ rfl) move
  | cleanup => exact tidy.of_wrote wrote rfl (fun _ _ left => lookup_of_lookup_cleanup left) orderly.inTime
  | _ => exact tidy.of_wrote wrote rfl (fun _ _ found => found) orderly.inTime

theorem Tidy.respects (orderly : Orderly s event) (routine : isRoutine event)
    (step : (paymentMachine process).step s event = some next) : Respects s next := by
  cases paymentStep_of_step step with
  | check => exact .of_same rfl rfl
  | checkStep move => exact tidy.respects_checkMove move
  | cleanup =>
    refine ⟨fun id payment' _ found failed => ⟨payment', found, failed⟩, fun id entry payment found gone => ?_⟩
    rw [lookup_cleanup found] at gone
    split at gone
    next stale => exact orderly.cleans rfl id entry payment found stale
    · cases gone
  | _ => exact routine.elim

end

end IpfsCluster.Proofs.Billing
