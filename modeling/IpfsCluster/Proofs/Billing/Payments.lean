import IpfsCluster.Model.Billing.Payments

/-! # What the steps of the payment service store

Every step stores at most one payment, which the state before the step and the event determine. All statements about the
payments in the storage and about their history follow from that, whatever the processor does.
-/

namespace IpfsCluster.Proofs.Billing

open Golang Machine Model.Billing Option PaymentService AList

variable {World : Type} {process : PaymentProvider World} {s next : PaymentService} {event : PaymentEvent World}

def isActive (payment : Payment) : Prop := payment.status = .pending ∨ payment.status = .succeeded

instance decidableIsActive (payment : Payment) : Decidable (isActive payment) := inferInstanceAs (Decidable (_ ∨ _))

inductive CheckMove (s : PaymentService) (fault : Option String) : CheckStage → PaymentService → CheckStage → Prop
  | finish : CheckMove s fault (.looking []) s .idle
  | expire {pending rest} (late : s.now.after pending.timeoutAt = true) :
      CheckMove s fault (.looking (pending :: rest)) s (.timedOut pending rest)
  | look {pending rest} (inTime : s.now.after pending.timeoutAt = false) :
      CheckMove s fault (.looking (pending :: rest)) s (.reading pending rest)
  | lose {pending rest err} (lost : s.storage.getPayment fault pending.paymentID = .error err) :
      CheckMove s fault (.timedOut pending rest) s (.removing pending rest)
  | fail {pending rest payment failed} (read : s.storage.getPayment fault pending.paymentID = .ok payment)
      (becomes : s.timedOutPayment payment = some failed) :
      CheckMove s fault (.timedOut pending rest) s (.failing failed pending rest)
  | store {payment pending rest} :
      CheckMove s fault (.failing payment pending rest) (s.storePayment fault payment) (.removing pending rest)
  | skip {pending rest err} (lost : s.storage.getPayment fault pending.paymentID = .error err) :
      CheckMove s fault (.reading pending rest) s (.looking rest)
  | wait {pending rest payment}
      (read : s.storage.getPayment fault pending.paymentID = .ok payment) (waits : payment.status = .pending) :
      CheckMove s fault (.reading pending rest) s (.looking rest)
  | settle {pending rest payment}
      (read : s.storage.getPayment fault pending.paymentID = .ok payment) (succeeded : payment.status = .succeeded) :
      CheckMove s fault (.reading pending rest) s (.settling .getInvoice pending rest)
  | drop {pending rest payment}
      (read : s.storage.getPayment fault pending.paymentID = .ok payment) (inactive : ¬ isActive payment) :
      CheckMove s fault (.reading pending rest) s (.removing pending rest)
  | update {stage pending rest} : CheckMove s fault (.settling stage pending rest)
        (s.updateInvoicePaymentStatus fault pending.invoiceID pending.paymentID stage).1
        (afterSettling pending rest
          (s.updateInvoicePaymentStatus fault pending.invoiceID pending.paymentID stage).2)
  | remove {pending rest} : CheckMove s fault (.removing pending rest)
        { s with pendingPayments := s.pendingPayments.erase pending.paymentID } (.looking rest)

theorem checkMove_of_checkPendingPayments {fault : Option String} {stage : CheckStage}
    (checked : s.checkPendingPayments fault = some (next, stage)) : CheckMove s fault s.checking next stage := by
  unfold checkPendingPayments at checked
  cases here : s.checking with rw [here] at checked
  | idle =>
    cases checked
  | looking entries =>
    cases entries with
    | nil =>
      cases checked
      exact .finish
    | cons pending rest =>
      cases late : s.now.after pending.timeoutAt with
      | true =>
        simp only [late, if_true] at checked
        cases checked
        exact .expire late
      | false =>
        simp only [late] at checked
        cases checked
        exact .look late
  | timedOut pending rest =>
    dsimp only at checked
    split at checked
    next err lost =>
      cases checked
      exact .lose lost
    next payment read =>
      obtain ⟨failed, becomes, same⟩ := map_eq_some_iff.mp checked
      cases same
      exact .fail read becomes
  | failing payment pending rest =>
    cases checked
    exact .store
  | reading pending rest =>
    dsimp only at checked
    split at checked
    next err lost =>
      cases checked
      exact .skip lost
    next payment read =>
      cases status : payment.status with rw [status] at checked
      | pending =>
        cases checked
        exact .wait read status
      | succeeded =>
        cases checked
        exact .settle read status
      | failed | cancelled | refunded =>
        cases checked
        exact .drop read (by simp [isActive, status])
  | settling stage pending rest =>
    cases checked
    exact .update
  | removing pending rest =>
    have move : CheckMove s fault (.removing pending rest)
      { s with pendingPayments := s.pendingPayments.erase pending.paymentID } (.looking rest) := .remove
    rw [here] at move
    cases checked
    exact move

inductive CallMove (process : PaymentProvider World) (s : PaymentService) (fault : Option String) (world : World)
    (call : InvoiceCall) : CallStage → PaymentService → CallStage → Prop
  | refuse {err} : CallMove process s fault world call .getInvoice s (.done (.error err))
  | begin {invoice} (read : s.storage.getInvoice fault call.invoiceID = .ok invoice) (unpaid : invoice.status ≠ .paid) :
      CallMove process s fault world call .getInvoice s (.process invoice)
  | fail {invoice err} : CallMove process s fault world call (.process invoice) s (.done (.error err))
  | pay {invoice result} (answered : process world (requestOf call invoice) = .ok result) :
      CallMove process s fault world call (.process invoice) s (.store invoice result)
  | store {invoice result} : CallMove process s fault world call (.store invoice result)
        (s.storePayment fault (s.paymentOf call invoice result)) (afterStore result)
  | track {paymentMethod result} :
      CallMove process s fault world call (.track result) (s.trackPendingPayment call paymentMethod result)
        (.done (.ok result))
  | update {stage result} : CallMove process s fault world call (.update stage result)
        (s.updateInvoicePaymentStatus fault call.invoiceID result.paymentID stage).1
        (afterUpdate result (s.updateInvoicePaymentStatus fault call.invoiceID result.paymentID stage).2)

theorem callMove_of_processInvoicePayment {fault : Option String} {world : World} {call : InvoiceCall}
    {stage : CallStage} (processed : s.processInvoicePayment process fault world call = some (next, stage)) :
    CallMove process s fault world call call.stage next stage := by
  unfold processInvoicePayment at processed
  cases here : call.stage with rw [here] at processed
  | getInvoice =>
    dsimp only at processed
    split at processed
    · cases processed
      exact .refuse
    next invoice read =>
      split at processed
      · cases processed
        exact .refuse
      next unpaid =>
        cases processed
        exact .begin read unpaid
  | process invoice =>
    dsimp only at processed
    split at processed
    · cases processed
      exact .fail
    next answered =>
      cases processed
      exact .pay answered
  | store invoice result =>
    cases processed
    exact .store
  | track result =>
    dsimp only at processed
    split at processed
    · cases processed
    · cases processed
      exact .track
  | update stage result =>
    cases processed
    exact .update
  | done outcome =>
    cases processed

inductive PaymentStep (process : PaymentProvider World) (s : PaymentService) :
    PaymentEvent World → PaymentService → Prop
  | call {n invoiceID paymentMethod} : PaymentStep process s (.call n invoiceID paymentMethod)
      { s with calls := s.calls.insert n ⟨invoiceID, paymentMethod, .getInvoice⟩ }
  | callStep {n fault world call after stage} (started : s.calls.lookup n = some call)
      (move : CallMove process s fault world call call.stage after stage) :
      PaymentStep process s (.callStep n fault world)
        { after with calls := s.calls.insert n { call with stage := stage } }
  | setStatus {paymentID status payment} (found : s.storage.payments.lookup paymentID = some payment) :
      PaymentStep process s (.setStatus paymentID status) (s.storePayment none { payment with status := status })
  | check {order} : PaymentStep process s (.check order)
      { s with checking := .looking ((order.visit [] s.pendingPayments.entries).map Sigma.snd) }
  | checkStep {fault after stage} (move : CheckMove s fault s.checking after stage) :
      PaymentStep process s (.checkStep fault) { after with checking := stage }
  | cleanup : PaymentStep process s .cleanup s.cleanupExpiredPayments
  | advance {nanos : ℕ} : PaymentStep process s (.advance nanos) { s with now := ⟨s.now.nanos + nanos⟩ }

theorem paymentStep_of_step (step : (paymentMachine process).step s event = some next) :
    PaymentStep process s event next := by
  cases event with
  | call n invoiceID paymentMethod =>
    obtain ⟨-, same⟩ := ite_none_left_eq_some.mp step
    cases same
    exact .call
  | callStep n fault world =>
    simp only [paymentMachine, stepCall] at step
    split at step
    · cases step
    next call started =>
      obtain ⟨⟨after, stage⟩, processed, rfl⟩ := map_eq_some_iff.mp step
      exact .callStep started (callMove_of_processInvoicePayment processed)
  | setStatus paymentID status =>
    obtain ⟨payment, found, rfl⟩ := map_eq_some_iff.mp step
    exact .setStatus found
  | check order =>
    simp only [paymentMachine, startCheck] at step
    split at step
    · cases step
      exact .check
    · cases step
  | checkStep fault =>
    obtain ⟨⟨after, stage⟩, checked, rfl⟩ := map_eq_some_iff.mp step
    exact .checkStep (checkMove_of_checkPendingPayments checked)
  | cleanup =>
    cases step
    exact .cleanup
  | advance nanos =>
    cases step
    exact .advance

def callWrites (s : PaymentService) (call : InvoiceCall) : Option Payment :=
  match call.stage with
  | .store invoice result => some (s.paymentOf call invoice result)
  | _ => none

def checkWrites (s : PaymentService) : Option Payment :=
  match s.checking with
  | .failing payment _ _ => some payment
  | _ => none

def unlessFault (fault : Option String) (payment : Option Payment) : Option Payment :=
  match fault with
  | some _ => none
  | none => payment

def written (s : PaymentService) : PaymentEvent World → Option Payment
  | .callStep n fault _ => unlessFault fault ((s.calls.lookup n).bind (callWrites s))
  | .checkStep fault => unlessFault fault (checkWrites s)
  | .setStatus paymentID status => (s.storage.payments.lookup paymentID).map fun payment => { payment with status := status }
  | _ => none

/-- A payment, if any, was stored, and nothing else about payments has changed. -/
structure Wrote (s next : PaymentService) (stored : Option Payment) : Prop where
  payments : next.storage.payments =
    stored.elim s.storage.payments fun payment => s.storage.payments.insert payment.id payment
  log : ∀ id status, Stored.payment id status ∈ next.log ↔
    Stored.payment id status ∈ s.log ∨ ∃ payment, stored = some payment ∧ payment.id = id ∧ payment.status = status
  kept : s.log ⊆ next.log

theorem Wrote.nothing (samePayments : next.storage.payments = s.storage.payments) (sameLog : next.log = s.log) :
    Wrote s next none where
  payments := samePayments
  log id status := by simp [sameLog]
  kept := by rw [sameLog]; exact List.Subset.refl _

section

variable (fault : Option String)

include fault

@[simp] theorem unlessFault_none_right : unlessFault fault none = none := by
  cases fault <;> rfl

theorem wrote_storePayment (payment : Payment) :
    Wrote s (s.storePayment fault payment) (unlessFault fault (some payment)) := by
  cases fault with
  | some err => exact .nothing rfl rfl
  | none =>
    refine ⟨rfl, fun id status => ?_, List.subset_cons_self _ _⟩
    simp only [storePayment, unlessFault, List.mem_cons, Stored.payment.injEq, some.injEq, exists_eq_left']
    tauto

theorem update_eq (invoiceID paymentID : String) (stage : UpdateStage) :
    (s.updateInvoicePaymentStatus fault invoiceID paymentID stage).1 = s ∨
      ∃ invoice, (s.updateInvoicePaymentStatus fault invoiceID paymentID stage).1 = s.storeInvoice fault invoice := by
  cases stage with
  | getInvoice | getPayment =>
    left
    rw [updateInvoicePaymentStatus]
    split <;> rfl
  | storeInvoice invoice => exact .inr ⟨invoice, rfl⟩
  | done err => exact .inl rfl

theorem wrote_update (invoiceID paymentID : String) (stage : UpdateStage) :
    Wrote s (s.updateInvoicePaymentStatus fault invoiceID paymentID stage).1 none := by
  rcases update_eq fault invoiceID paymentID stage with same | ⟨invoice, same⟩ <;> rw [same]
  · exact .nothing rfl rfl
  · cases fault with
    | some err => exact .nothing rfl rfl
    | none =>
      refine ⟨rfl, fun id status => ?_, List.subset_cons_self _ _⟩
      simp [storeInvoice]

end

theorem CallMove.wrote {fault : Option String} {world : World} {call : InvoiceCall} {stage : CallStage}
    (move : CallMove process s fault world call call.stage next stage) :
    Wrote s next (unlessFault fault (callWrites s call)) := by
  unfold callWrites
  generalize call.stage = here at move
  cases move with
  | store => exact wrote_storePayment fault _
  | update =>
    rw [unlessFault_none_right]
    exact wrote_update ..
  | _ =>
    rw [unlessFault_none_right]
    exact .nothing rfl rfl

theorem CheckMove.wrote {fault : Option String} {stage : CheckStage} (move : CheckMove s fault s.checking next stage) :
    Wrote s next (unlessFault fault (checkWrites s)) := by
  unfold checkWrites
  generalize s.checking = here at move
  cases move with
  | store => exact wrote_storePayment fault _
  | update =>
    rw [unlessFault_none_right]
    exact wrote_update ..
  | _ =>
    rw [unlessFault_none_right]
    exact .nothing rfl rfl

theorem Wrote.congr {next' : PaymentService} {stored : Option Payment} (wrote : Wrote s next stored)
    (sameStorage : next'.storage = next.storage) (sameLog : next'.log = next.log) : Wrote s next' stored := by
  refine ⟨?_, ?_, ?_⟩
  · rw [sameStorage, wrote.payments]
  · rw [sameLog]
    exact wrote.log
  · rw [sameLog]
    exact wrote.kept

theorem wrote_of_step (step : (paymentMachine process).step s event = some next) : Wrote s next (written s event) := by
  cases paymentStep_of_step step with
  | callStep started move =>
    rw [written, started]
    exact move.wrote.congr rfl rfl
  | setStatus found =>
    rw [written, found]
    exact wrote_storePayment none _
  | checkStep move => exact move.wrote.congr rfl rfl
  | _ => exact .nothing rfl rfl

/-- What every stored payment has, and the payment that a step stores, all payments have after the step. -/
theorem stored_step {holds : Payment → Prop} (step : (paymentMachine process).step s event = some next)
    (before : ∀ id payment, s.storage.payments.lookup id = some payment → holds payment)
    (new : ∀ payment, written s event = some payment → holds payment) :
    ∀ id payment, next.storage.payments.lookup id = some payment → holds payment := by
  intro id payment found
  rw [(wrote_of_step step).payments] at found
  cases stored : written s event with
  | none =>
    rw [stored] at found
    exact before id payment found
  | some written' =>
    rw [stored] at found
    rcases lookup_insert_eq_some found with ⟨-, rfl⟩ | ⟨-, old⟩
    · exact new _ stored
    · exact before id payment old

def OnlyStorage (s next : PaymentService) : Prop := ∃ storage log, next = { s with storage := storage, log := log }

theorem onlyStorage_storePayment (fault : Option String) (payment : Payment) :
    OnlyStorage s (s.storePayment fault payment) := by
  cases fault <;> exact ⟨_, _, rfl⟩

theorem onlyStorage_update (fault : Option String) (invoiceID paymentID : String) (stage : UpdateStage) :
    OnlyStorage s (s.updateInvoicePaymentStatus fault invoiceID paymentID stage).1 := by
  rcases update_eq fault invoiceID paymentID stage with same | ⟨invoice, same⟩ <;> rw [same]
  · exact ⟨_, _, rfl⟩
  · cases fault <;> exact ⟨_, _, rfl⟩

section

variable (only : OnlyStorage s next)

include only

theorem OnlyStorage.calls : next.calls = s.calls := by
  obtain ⟨storage, log, rfl⟩ := only
  rfl

theorem OnlyStorage.checking : next.checking = s.checking := by
  obtain ⟨storage, log, rfl⟩ := only
  rfl

theorem OnlyStorage.pendingPayments : next.pendingPayments = s.pendingPayments := by
  obtain ⟨storage, log, rfl⟩ := only
  rfl

end

theorem CheckMove.calls {fault : Option String} {here stage : CheckStage} (move : CheckMove s fault here next stage) :
    next.calls = s.calls := by
  cases move with
  | store => exact (onlyStorage_storePayment ..).calls
  | update => exact (onlyStorage_update ..).calls
  | _ => rfl

theorem CallMove.checking {fault : Option String} {world : World} {call : InvoiceCall} {here stage : CallStage}
    (move : CallMove process s fault world call here next stage) : next.checking = s.checking := by
  cases move with
  | store => exact (onlyStorage_storePayment ..).checking
  | update => exact (onlyStorage_update ..).checking
  | _ => rfl

theorem getPayment_eq_ok {st : PaymentStorage} {fault : Option String} {paymentID : String} {payment : Payment}
    (read : st.getPayment fault paymentID = .ok payment) : fault = none ∧ st.payments.lookup paymentID = some payment := by
  unfold PaymentStorage.getPayment at read
  split at read
  · cases read
  · split at read
    · cases read
    next found =>
      cases read
      exact ⟨rfl, found⟩

/-- The payment that the checker is about to store is a copy of a stored one, as failed. -/
theorem CheckMove.failing {fault : Option String} {here stage : CheckStage} {failing : Payment}
    {pending : PendingPayment} {rest : List PendingPayment} (move : CheckMove s fault here next stage)
    (fails : stage = .failing failing pending rest) :
    ∃ payment, s.storage.payments.lookup pending.paymentID = some payment ∧ failing.status = .failed ∧
      failing.invoiceID = payment.invoiceID ∧ failing.transactionID = payment.transactionID := by
  cases move with
  | fail read becomes =>
    cases fails
    obtain ⟨metadata, -, rfl⟩ := map_eq_some_iff.mp becomes
    exact ⟨_, (getPayment_eq_ok read).2, rfl, rfl, rfl⟩
  | update =>
    unfold afterSettling at fails
    split at fails <;> cases fails
  | _ => cases fails

/-- A call is past the check of its invoice and has not stored its payment. -/
def isPaying : CallStage → Bool
  | .process _ | .store _ _ => true
  | _ => false

/-- A call looks at its invoice and finds it unpaid. -/
def findsUnpaid (s : PaymentService) (fault : Option String) (call : InvoiceCall) : Bool :=
  match call.stage, s.storage.getInvoice fault call.invoiceID with
  | .getInvoice, .ok invoice => invoice.status ≠ .paid
  | _, _ => false

theorem not_isPaying_afterStore (result : PaymentResult) : ¬ isPaying (afterStore result) = true := by
  unfold afterStore
  split <;> exact Bool.false_ne_true

theorem not_isPaying_afterUpdate (result : PaymentResult) (stage : UpdateStage) :
    ¬ isPaying (afterUpdate result stage) = true := by
  unfold afterUpdate
  split <;> exact Bool.false_ne_true

/-- The invoice of a call has no active payment, and no other call is paying it. -/
def Free (s : PaymentService) (n : ℕ) (call : InvoiceCall) : Prop :=
  (∀ entry ∈ s.storage.payments.entries, isActive entry.2 → entry.2.invoiceID ≠ call.invoiceID) ∧
    ∀ entry ∈ s.calls.entries, entry.1 ≠ n → isPaying entry.2.stage = true → entry.2.invoiceID ≠ call.invoiceID

/-- A call does not find its invoice unpaid while the invoice has an active payment or another call is paying it; and an
update does not make a payment active that is not. -/
def PaysAlone (s : PaymentService) : PaymentEvent World → Prop
  | .callStep n fault _ => ∀ call ∈ s.calls.lookup n, findsUnpaid s fault call = true → Free s n call
  | .setStatus paymentID status => status = .pending ∨ status = .succeeded →
      ∀ payment ∈ s.storage.payments.lookup paymentID, isActive payment
  | _ => True

instance decidablePaysAlone (s : PaymentService) : ∀ event : PaymentEvent World, Decidable (PaysAlone s event)
  | .callStep n _ _ => inferInstanceAs (Decidable (∀ call ∈ s.calls.lookup n, _ → _ ∧ _))
  | .setStatus paymentID _ => inferInstanceAs (Decidable (_ → ∀ payment ∈ s.storage.payments.lookup paymentID, _))
  | .call .. | .check _ | .checkStep _ | .cleanup | .advance _ => isTrue trivial

/-- An invoice has at most one payment that is pending or has succeeded. -/
def OneActive (s : PaymentService) : Prop :=
  ∀ id id' payment payment', s.storage.payments.lookup id = some payment →
    s.storage.payments.lookup id' = some payment' → isActive payment → isActive payment' →
      payment.invoiceID = payment'.invoiceID → id = id'

/-- Calls that are paying pay different invoices, none of which has an active payment. -/
structure Alone (s : PaymentService) : Prop where
  one : OneActive s
  free : ∀ n call id payment, s.calls.lookup n = some call → isPaying call.stage = true →
    s.storage.payments.lookup id = some payment → isActive payment → payment.invoiceID ≠ call.invoiceID
  apart : ∀ n m call other, n ≠ m → s.calls.lookup n = some call → s.calls.lookup m = some other →
    isPaying call.stage = true → isPaying other.stage = true → call.invoiceID ≠ other.invoiceID
  failing : ∀ payment pending rest, s.checking = .failing payment pending rest → ¬ isActive payment

/-- The event is a step of a call that was started. -/
def Steps (s : PaymentService) (event : PaymentEvent World) (n : ℕ) (call : InvoiceCall) : Prop :=
  ∃ fault world, event = .callStep n fault world ∧ s.calls.lookup n = some call

theorem Steps.started {n : ℕ} {call : InvoiceCall} (steps : Steps s event n call) : s.calls.lookup n = some call := by
  obtain ⟨_, _, -, started⟩ := steps
  exact started

theorem Steps.unique {n m : ℕ} {call other : InvoiceCall} (first : Steps s event n call) (second : Steps s event m other) :
    n = m ∧ call = other := by
  obtain ⟨fault, world, rfl, started⟩ := first
  obtain ⟨_, _, same, alsoStarted⟩ := second
  cases same
  exact ⟨rfl, mem_unique started alsoStarted⟩

/-- A call was paying and the event does not store its payment, or it finds its invoice unpaid. -/
def Pays (s : PaymentService) (event : PaymentEvent World) (n : ℕ) (call : InvoiceCall) : Prop :=
  isPaying call.stage = true ∧ (∀ invoice result, Steps s event n call → call.stage ≠ .store invoice result) ∨
    Steps s event n call ∧ call.stage = .getInvoice ∧ Free s n call

section

variable (alone : Alone s) (meets : PaysAlone s event) (step : (paymentMachine process).step s event = some next)

include meets step

theorem pays_of_step {n : ℕ} {call : InvoiceCall} (found : next.calls.lookup n = some call)
    (paying : isPaying call.stage = true) : ∃ old, s.calls.lookup n = some old ∧ old.invoiceID = call.invoiceID ∧
      Pays s event n old := by
  have kept (same : s.calls.lookup n = some call) (other : ∀ fault world, event ≠ .callStep n fault world) :
      ∃ old, s.calls.lookup n = some old ∧ old.invoiceID = call.invoiceID ∧ Pays s event n old :=
    ⟨call, same, rfl, .inl ⟨paying, fun _ _ ⟨fault, world, isEvent, _⟩ => (other fault world isEvent).elim⟩⟩
  cases paymentStep_of_step step with
  | call =>
    rcases lookup_insert_eq_some found with ⟨-, rfl⟩ | ⟨-, old⟩
    · cases paying
    · exact kept old fun _ _ absurd => nomatch absurd
  | @callStep m fault world started _ stage isStarted move =>
    rcases lookup_insert_eq_some found with ⟨rfl, rfl⟩ | ⟨different, old⟩
    · refine ⟨started, isStarted, rfl, ?_⟩
      generalize here : started.stage = before at move
      cases move with
      | begin read unpaid =>
        refine .inr ⟨⟨fault, world, rfl, isStarted⟩, here, meets started isStarted ?_⟩
        simpa only [findsUnpaid, here, read, decide_eq_true_eq] using unpaid
      | pay =>
        refine .inl ⟨by rw [here]; rfl, fun _ _ _ stores => ?_⟩
        cases here.symm.trans stores
      | store => exact (not_isPaying_afterStore _ paying).elim
      | update => exact (not_isPaying_afterUpdate _ _ paying).elim
      | _ => cases paying
    · exact kept old fun _ _ same => different (by cases same; rfl)
  | checkStep move => exact kept (move.calls ▸ found) fun _ _ absurd => nomatch absurd
  | setStatus | check | cleanup | advance => exact kept found fun _ _ absurd => nomatch absurd

include alone

/-- An active payment was there before, or a call has stored it. -/
theorem active_of_step {id : String} {payment : Payment} (found : next.storage.payments.lookup id = some payment)
    (active : isActive payment) :
    (∃ old, s.storage.payments.lookup id = some old ∧ isActive old ∧ old.invoiceID = payment.invoiceID) ∨
      ∃ n call invoice result, Steps s event n call ∧ call.stage = .store invoice result ∧ id = result.paymentID ∧
        call.invoiceID = payment.invoiceID := by
  rw [(wrote_of_step step).payments] at found
  cases stored : written s event with
  | none =>
    rw [stored] at found
    exact .inl ⟨payment, found, active, rfl⟩
  | some new =>
    rw [stored] at found
    rcases lookup_insert_eq_some found with ⟨rfl, rfl⟩ | ⟨-, old⟩
    · cases event with
      | callStep n fault world =>
        cases fault with
        | some err => cases stored
        | none =>
          obtain ⟨call, started, writes⟩ := bind_eq_some_iff.mp stored
          unfold callWrites at writes
          split at writes
          next invoice result here =>
            cases writes
            exact .inr ⟨n, call, invoice, result, ⟨none, world, rfl, started⟩, here, rfl, rfl⟩
          · cases writes
      | setStatus paymentID status =>
        obtain ⟨old, there, rfl⟩ := map_eq_some_iff.mp stored
        refine .inl ⟨old, ?_, meets active old there, rfl⟩
        rw [← s.storage.id_of_payment _ _ there] at there
        exact there
      | checkStep fault =>
        cases fault with
        | some err => cases stored
        | none =>
          change checkWrites s = some new at stored
          unfold checkWrites at stored
          split at stored
          next failing pending rest here =>
            cases stored
            exact (alone.failing _ pending rest here active).elim
          · cases stored
      | _ => cases stored
    · exact .inl ⟨payment, old, active, rfl⟩

theorem alone_step : Alone next := by
  have active {id : String} {payment : Payment} (found : next.storage.payments.lookup id = some payment)
      (now : isActive payment) := active_of_step alone meets step found now
  have pays {n : ℕ} {call : InvoiceCall} (found : next.calls.lookup n = some call) (now : isPaying call.stage = true) :=
    pays_of_step meets step found now
  -- a call that stores its payment has nothing to do with the payments that were active before
  have storing {n : ℕ} {call : InvoiceCall} {invoice : Invoice} {result : PaymentResult} (steps : Steps s event n call)
      (here : call.stage = .store invoice result) {id : String} {old : Payment}
      (there : s.storage.payments.lookup id = some old) (wasActive : isActive old) : old.invoiceID ≠ call.invoiceID :=
    alone.free n call id old steps.started (by rw [here]; rfl) there wasActive
  refine ⟨fun id id' payment payment' found found' now now' same => ?_,
    fun n call id payment started paying found now => ?_,
    fun n m call other different started alsoStarted paying alsoPaying => ?_, fun payment pending rest here => ?_⟩
  · rcases active found now with ⟨old, there, was, ofInvoice⟩ | ⟨n, call, _, _, steps, here, rfl, ofInvoice⟩ <;>
      rcases active found' now' with ⟨old', there', was', ofInvoice'⟩ | ⟨m, other, _, _, steps', here', rfl, ofInvoice'⟩
    · exact alone.one id id' old old' there there' was was' (by rw [ofInvoice, ofInvoice', same])
    · exact (storing steps' here' there was (by rw [ofInvoice, ofInvoice', same])).elim
    · exact (storing steps here there' was' (by rw [ofInvoice, ofInvoice', same])).elim
    · obtain ⟨rfl, rfl⟩ := steps.unique steps'
      cases here.symm.trans here'
      rfl
  · obtain ⟨old, wasStarted, ofCall, ⟨wasPaying, notStoring⟩ | ⟨steps, begins, free⟩⟩ := pays started paying <;>
      rw [← ofCall] <;>
      rcases active found now with ⟨before, there, was, ofInvoice⟩ | ⟨m, other, _, _, steps', here', rfl, ofInvoice⟩ <;>
      rw [← ofInvoice]
    · exact alone.free n old id before wasStarted wasPaying there was
    · by_cases same : m = n
      · subst same
        obtain rfl := mem_unique wasStarted steps'.started
        exact (notStoring _ _ steps' here').elim
      · exact alone.apart m n other old same steps'.started wasStarted (by rw [here']; rfl) wasPaying
    · exact free.1 ⟨id, before⟩ (mem_entries_iff.mpr there) was
    · obtain ⟨rfl, rfl⟩ := steps.unique steps'
      cases begins.symm.trans here'
  · obtain ⟨old, wasStarted, ofCall, first⟩ := pays started paying
    obtain ⟨old', wasStarted', ofCall', second⟩ := pays alsoStarted alsoPaying
    rw [← ofCall, ← ofCall']
    rcases first with ⟨wasPaying, -⟩ | ⟨steps, -, free⟩ <;> rcases second with ⟨wasPaying', -⟩ | ⟨steps', -, free'⟩
    · exact alone.apart n m old old' different wasStarted wasStarted' wasPaying wasPaying'
    · exact free'.2 ⟨n, old⟩ (mem_entries_iff.mpr wasStarted) different wasPaying
    · exact (free.2 ⟨m, old'⟩ (mem_entries_iff.mpr wasStarted') different.symm wasPaying').symm
    · exact (different (steps.unique steps').1).elim
  · cases paymentStep_of_step step with
    | callStep started move => exact alone.failing payment pending rest (move.checking ▸ here)
    | checkStep move =>
      obtain ⟨_, _, failed, _⟩ := move.failing here
      rintro (isPending | succeeded)
      · cases failed.symm.trans isPending
      · cases failed.symm.trans succeeded
    | check => cases here
    | call | setStatus | cleanup | advance => exact alone.failing payment pending rest here

end

section

def transactionHash (paymentMethod : Option PaymentMethod) : Option String :=
  (paymentMethod.bind PaymentMethod.details).bind fun details => details.lookup "transaction_hash"

variable {contractAddr : String} {world : PolygonWorld} {request : PaymentRequest} {result : PaymentResult}

theorem transactionHash_of_processPolygon (processed : processPolygon contractAddr world request = .ok result) :
    transactionHash request.paymentMethod = some result.transactionID := by
  unfold processPolygon at processed
  split at processed
  · cases processed
  next details detailed =>
    split at processed
    · cases processed
    next txHash named =>
      have names : transactionHash request.paymentMethod = some txHash := by
        rw [transactionHash, detailed, bind_some, named]
      iterate 4
        split at processed
        · cases processed
      cases processed
      exact names

theorem transactionHash_of_processPayment
    (processed : processPayment (polygonProcessors contractAddr) world request = .ok result) :
    transactionHash request.paymentMethod = some result.transactionID := by
  unfold processPayment polygonProcessors at processed
  split at processed
  · cases processed
  split at processed
  · cases processed
  next paymentMethod _ provider configured =>
    split at configured
    · cases configured
      split at processed
      · cases processed
      next answered =>
        cases processed
        exact transactionHash_of_processPolygon answered
    · cases configured

theorem CallMove.process_of_store {fault : Option String} {world : World} {call : InvoiceCall} {here stage : CallStage}
    {invoice : Invoice} {result : PaymentResult} (move : CallMove process s fault world call here next stage)
    (stores : stage = .store invoice result) : process world (requestOf call invoice) = .ok result := by
  cases move with
  | pay answered =>
    cases stores
    exact answered
  | store =>
    unfold afterStore at stores
    split at stores <;> cases stores
  | update =>
    unfold afterUpdate at stores
    split at stores <;> cases stores
  | _ => cases stores

/-- A payment is for the invoice that its transaction belongs to. -/
def Owned (owner : String → String) (payment : Payment) : Prop := payment.invoiceID = owner payment.transactionID

/-- Transactions belong to invoices: those of the stored payments and of the one that the checker is about to store,
and those that calls name, which are those of their results. -/
structure OwnedBy (owner : String → String) (s : PaymentService) : Prop where
  stored : ∀ id payment, s.storage.payments.lookup id = some payment → Owned owner payment
  failing : ∀ payment pending rest, s.checking = .failing payment pending rest → Owned owner payment
  named : ∀ n call hash, s.calls.lookup n = some call → transactionHash call.paymentMethod = some hash →
    call.invoiceID = owner hash
  results : ∀ n call invoice result, s.calls.lookup n = some call → call.stage = .store invoice result →
    transactionHash call.paymentMethod = some result.transactionID

variable {owner : String → String} {event : PaymentEvent PolygonWorld}

theorem OwnedBy.written (owned : OwnedBy owner s) {payment : Payment} (stored : Billing.written s event = some payment) :
    Owned owner payment := by
  cases event with
  | callStep n fault world =>
    cases fault with
    | some err => cases stored
    | none =>
      obtain ⟨call, started, writes⟩ := bind_eq_some_iff.mp stored
      unfold callWrites at writes
      split at writes
      next invoice result here =>
        cases writes
        exact owned.named n call _ started (owned.results n call invoice result started here)
      · cases writes
  | setStatus paymentID status =>
    obtain ⟨old, found, rfl⟩ := map_eq_some_iff.mp stored
    exact owned.stored paymentID old found
  | checkStep fault =>
    cases fault with
    | some err => cases stored
    | none =>
      change checkWrites s = some payment at stored
      unfold checkWrites at stored
      split at stored
      next failing pending rest here =>
        cases stored
        exact owned.failing _ pending rest here
      · cases stored
  | _ => cases stored

theorem OwnedBy.step (owned : OwnedBy owner s)
    (names : ∀ n invoiceID paymentMethod hash, event = .call n invoiceID paymentMethod →
      transactionHash paymentMethod = some hash → invoiceID = owner hash)
    (step : (paymentMachine (processPayment (polygonProcessors contractAddr))).step s event = some next) :
    OwnedBy owner next := by
  have stored := stored_step step owned.stored fun _ => owned.written
  cases paymentStep_of_step step with
  | call =>
    refine ⟨stored, owned.failing, fun m call hash found named => ?_, fun m call invoice result found here => ?_⟩
    · rcases lookup_insert_eq_some found with ⟨-, rfl⟩ | ⟨-, old⟩
      · exact names _ _ _ hash rfl named
      · exact owned.named m call hash old named
    · rcases lookup_insert_eq_some found with ⟨-, rfl⟩ | ⟨-, old⟩
      · cases here
      · exact owned.results m call invoice result old here
  | @callStep n _ _ started _ _ isStarted move =>
    refine ⟨stored, fun payment pending rest here => ?_, fun m call hash found named => ?_,
      fun m call invoice result found here => ?_⟩
    · exact owned.failing payment pending rest (move.checking ▸ here)
    · rcases lookup_insert_eq_some found with ⟨-, rfl⟩ | ⟨-, old⟩
      · exact owned.named n started hash isStarted named
      · exact owned.named m call hash old named
    · rcases lookup_insert_eq_some found with ⟨-, rfl⟩ | ⟨-, old⟩
      · exact transactionHash_of_processPayment (move.process_of_store here)
      · exact owned.results m call invoice result old here
  | checkStep move =>
    refine ⟨stored, fun payment pending rest here => ?_, fun m call hash found => ?_, fun m call invoice result found => ?_⟩
    · obtain ⟨old, found, -, sameInvoice, sameTransaction⟩ := move.failing here
      rw [Owned, sameInvoice, sameTransaction]
      exact owned.stored _ old found
    · exact owned.named m call hash (move.calls ▸ found)
    · exact owned.results m call invoice result (move.calls ▸ found)
  | check => exact ⟨stored, fun _ _ _ here => (nomatch here), owned.named, owned.results⟩
  | setStatus | cleanup | advance => exact ⟨stored, owned.failing, owned.named, owned.results⟩

end

end IpfsCluster.Proofs.Billing
