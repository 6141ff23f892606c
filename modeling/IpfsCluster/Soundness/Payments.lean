import IpfsCluster.Proofs.Billing.PendingChecks

/-! # Soundness of payments

An invoice should never have two payments that are pending or have succeeded, and a transaction should pay one invoice
only. Neither is checked where a payment is stored. The handling of timeouts does not look at the status that it
overwrites, and the error of marking an invoice is only logged. The processor asks the providers for a refund one after
the other, in the order of the map.
-/

namespace IpfsCluster.Soundness

open Golang Machine Model.Api Model.Billing Proofs.Billing List Option Prod

/-- For every processor and every interleaving of calls, checks, clean-ups and status updates: an invoice never has two
active payments, if no call finds its invoice unpaid while the invoice has an active payment or another call is paying
it, and updates do not make payments active again. -/
theorem one_active_payment {World : Type} (process : PaymentProvider World) {s : PaymentService}
    {events : List (PaymentEvent World)} (quiet : s.calls = ∅) (idle : s.checking = .idle) (initial : OneActive s)
    (meets : (paymentMachine process).Meets PaysAlone s events) :
    ∀ before after mid, events = before ++ after → (paymentMachine process).run s before = some mid → OneActive mid := by
  rintro before after mid rfl ran
  have start : Alone s := by
    refine ⟨initial, ?_, ?_, ?_⟩
    · rw [quiet]
      exact fun _ _ _ _ started => nomatch started
    · rw [quiet]
      exact fun _ _ _ _ _ started => nomatch started
    · rw [idle]
      exact fun _ _ _ here => nomatch here
  exact (LabeledMachine.invariant_of_meets Alone (fun _ _ _ alone meets step => alone_step alone meets step) start
    (meets.of_append ran).1 ran).one

def serviceWith (invoices : List Invoice) : PaymentService where
  storage := invoices.foldl PaymentStorage.putInvoice .empty
  pendingPayments := ∅
  now := ⟨0⟩
  calls := ∅
  checking := .idle
  log := []

theorem payments_serviceWith (invoices : List Invoice) : (serviceWith invoices).storage.payments = ∅ := by
  have kept (st : PaymentStorage) : (invoices.foldl PaymentStorage.putInvoice st).payments = st.payments := by
    induction invoices generalizing st with
    | nil => rfl
    | cons invoice rest ih => exact ih (st.putInvoice invoice)
  exact kept _

theorem oneActive_serviceWith (invoices : List Invoice) : OneActive (serviceWith invoices) := by
  intro id id' payment payment' found
  rw [payments_serviceWith] at found
  cases found

def answersPending : PaymentProvider String := fun paymentID request =>
  .ok ⟨paymentID, .pending, request.amount, request.currency, ⟨0⟩, paymentID, some ∅⟩

def unpaid (invoiceID : String) : Invoice := { id := invoiceID, totalAmount := 5, status := .sent }

def wholeCall (n : ℕ) (invoiceID paymentID : String) (method : PaymentMethod) : List (PaymentEvent String) :=
  .call n invoiceID (some method) :: List.replicate 4 (.callStep n none paymentID)

def pendingInvoice (s : PaymentService) (paymentID : String) : Option String :=
  (s.storage.payments.lookup paymentID).bind fun payment =>
    if payment.status = .pending then some payment.invoiceID else none

def succeededFor (s : PaymentService) (paymentID : String) : Option (String × String) :=
  (s.storage.payments.lookup paymentID).bind fun payment =>
    if payment.status = .succeeded then some (payment.invoiceID, payment.transactionID) else none

theorem exists_of_storedAs {γ : Type} {s : PaymentService} {paymentID : String} {status : PaymentStatus} {f : Payment → γ}
    {value : γ} (stored : ((s.storage.payments.lookup paymentID).bind fun payment =>
      if payment.status = status then some (f payment) else none) = some value) :
    ∃ payment, s.storage.payments.lookup paymentID = some payment ∧ payment.status = status ∧ f payment = value := by
  obtain ⟨payment, found, isValue⟩ := bind_eq_some_iff.mp stored
  obtain ⟨isStatus, same⟩ := ite_none_right_eq_some.mp isValue
  exact ⟨payment, found, isStatus, some.inj same⟩

theorem invoice_paid_twice : OneActive (serviceWith [unpaid "i"]) ∧
      ∃ last, (paymentMachine answersPending).run (serviceWith [unpaid "i"])
        (wholeCall 0 "i" "a" { provider := "card" } ++ wholeCall 1 "i" "b" { provider := "card" }) = some last ∧
          ¬ OneActive last := by
  refine ⟨oneActive_serviceWith _, ?_⟩
  have evaluated : ((paymentMachine answersPending).run (serviceWith [unpaid "i"])
      (wholeCall 0 "i" "a" { provider := "card" } ++ wholeCall 1 "i" "b" { provider := "card" })).map
        (fun last => (pendingInvoice last "a", pendingInvoice last "b")) = some (some "i", some "i") := by
    decide +kernel
  obtain ⟨last, ran, statuses⟩ := map_eq_some_iff.mp evaluated
  obtain ⟨first, second⟩ := mk.inj statuses
  obtain ⟨payment, found, pending, ofInvoice⟩ := exists_of_storedAs first
  obtain ⟨payment', found', pending', ofInvoice'⟩ := exists_of_storedAs second
  refine ⟨last, ran, fun one => ?_⟩
  have same := one "a" "b" payment payment' found found' (.inl pending) (.inl pending') (ofInvoice.trans ofInvoice'.symm)
  revert same
  decide

/-- Two calls for different invoices interleave; the first payment succeeds, and a call for its paid invoice is refused. -/
def payTwo : List (PaymentEvent String) :=
  [.call 0 "i" (some { provider := "card" }), .call 1 "j" (some { provider := "card" }), .callStep 0 none "a",
    .callStep 1 none "b", .callStep 0 none "a", .callStep 1 none "b", .callStep 0 none "a", .callStep 0 none "a",
    .setStatus "a" .succeeded, .callStep 1 none "b", .check .stored] ++ List.replicate 6 (.checkStep none) ++
    [.call 2 "i" (some { provider := "card" }), .callStep 2 none "c"]

theorem one_active_payment_two :
    ∃ last, (paymentMachine answersPending).run (serviceWith [unpaid "i", unpaid "j"]) payTwo = some last ∧
      (succeededFor last "a", pendingInvoice last "b") = (some ("i", "a"), some "j") ∧ OneActive last := by
  have evaluated : ((paymentMachine answersPending).run (serviceWith [unpaid "i", unpaid "j"]) payTwo).map
      (fun last => (succeededFor last "a", pendingInvoice last "b")) = some (some ("i", "a"), some "j") := by
    decide +kernel
  obtain ⟨last, ran, seen⟩ := map_eq_some_iff.mp evaluated
  have meets : (paymentMachine answersPending).Meets PaysAlone (serviceWith [unpaid "i", unpaid "j"]) payTwo := by
    decide +kernel
  exact ⟨last, ran, seen, one_active_payment answersPending rfl rfl (oneActive_serviceWith _) meets _ [] last
    (append_nil _).symm ran⟩

/-- A transaction is that of active payments of at most one invoice. -/
def OneInvoice (s : PaymentService) : Prop :=
  ∀ id id' payment payment', s.storage.payments.lookup id = some payment →
    s.storage.payments.lookup id' = some payment' → isActive payment → isActive payment' →
      payment.transactionID = payment'.transactionID → payment.invoiceID = payment'.invoiceID

/-- For every address of the contract and whatever the network answers, in every interleaving of calls, checks,
clean-ups and status updates: a transaction never has active payments of two invoices, if each hash that the calls name
is used for one invoice only, which is that of the payments stored before. -/
theorem transaction_pays_one_invoice (contractAddr : String) (owner : String → String) {s last : PaymentService}
    {events : List (PaymentEvent PolygonWorld)} (quiet : s.calls = ∅) (idle : s.checking = .idle)
    (initial : ∀ id payment, s.storage.payments.lookup id = some payment → payment.invoiceID = owner payment.transactionID)
    (names : ∀ n invoiceID paymentMethod hash, .call n invoiceID paymentMethod ∈ events →
      transactionHash paymentMethod = some hash → invoiceID = owner hash)
    (ran : (paymentMachine (processPayment (polygonProcessors contractAddr))).run s events = some last) :
    OneInvoice last := by
  have start : OwnedBy owner s := by
    refine ⟨initial, ?_, ?_, ?_⟩
    · rw [idle]
      exact fun _ _ _ here => nomatch here
    · rw [quiet]
      exact fun _ _ _ started => nomatch started
    · rw [quiet]
      exact fun _ _ _ _ started => nomatch started
  have each : ∀ event ∈ events, ∀ _ : PaymentService, ∀ n invoiceID paymentMethod hash,
      event = .call n invoiceID paymentMethod → transactionHash paymentMethod = some hash → invoiceID = owner hash :=
    fun event member _ n invoiceID paymentMethod hash isCall => names n invoiceID paymentMethod hash (isCall ▸ member)
  have owned : OwnedBy owner last := LabeledMachine.invariant_of_meets (OwnedBy owner)
    (fun _ _ _ owned names step => owned.step names step) start (LabeledMachine.meets_of_forall each s) ran
  intro id id' payment payment' found found' _ _ same
  exact (owned.stored id payment found).trans (same ▸ (owned.stored id' payment' found').symm)

def oneTransaction (paymentID : String) : PolygonWorld where
  transaction txHash := .ok ⟨txHash, "0xf", "0xc", 5, 21000, 1, 1⟩
  confirmed := .ok true
  paymentID := paymentID
  now := ⟨0⟩

def byTransaction (txHash : String) : PaymentMethod where
  provider := "polygon"
  details := some (((∅ : Details).insert "transaction_hash" txHash).insert "from_address" "0xf")

def payByTransaction (n : ℕ) (invoiceID paymentID txHash : String) : List (PaymentEvent PolygonWorld) :=
  .call n invoiceID (some (byTransaction txHash)) :: List.replicate 3 (.callStep n none (oneTransaction paymentID))

theorem transaction_replayed :
    ∃ last, (paymentMachine (processPayment (polygonProcessors "0xc"))).run (serviceWith [unpaid "i", unpaid "j"])
      (payByTransaction 0 "i" "a" "0x1" ++ payByTransaction 1 "j" "b" "0x1") = some last ∧ ¬ OneInvoice last := by
  have evaluated : ((paymentMachine (processPayment (polygonProcessors "0xc"))).run
      (serviceWith [unpaid "i", unpaid "j"])
      (payByTransaction 0 "i" "a" "0x1" ++ payByTransaction 1 "j" "b" "0x1")).map
        (fun last => (succeededFor last "a", succeededFor last "b")) = some (some ("i", "0x1"), some ("j", "0x1")) := by
    decide +kernel
  obtain ⟨last, ran, statuses⟩ := map_eq_some_iff.mp evaluated
  obtain ⟨first, second⟩ := mk.inj statuses
  obtain ⟨payment, found, succeeded, names⟩ := exists_of_storedAs first
  obtain ⟨payment', found', succeeded', names'⟩ := exists_of_storedAs second
  obtain ⟨ofInvoice, ofTransaction⟩ := mk.inj names
  obtain ⟨ofInvoice', ofTransaction'⟩ := mk.inj names'
  refine ⟨last, ran, fun one => ?_⟩
  have same := one "a" "b" payment payment' found found' (.inr succeeded) (.inr succeeded')
    (ofTransaction.trans ofTransaction'.symm)
  rw [ofInvoice, ofInvoice'] at same
  revert same
  decide

def ownerOf (txHash : String) : String := if txHash = "0x1" then "i" else "j"

theorem transaction_pays_one_invoice_each :
    ∃ last, (paymentMachine (processPayment (polygonProcessors "0xc"))).run (serviceWith [unpaid "i", unpaid "j"])
        (payByTransaction 0 "i" "a" "0x1" ++ payByTransaction 1 "j" "b" "0x2") = some last ∧
      (succeededFor last "a", succeededFor last "b") = (some ("i", "0x1"), some ("j", "0x2")) ∧ OneInvoice last := by
  have evaluated : ((paymentMachine (processPayment (polygonProcessors "0xc"))).run
      (serviceWith [unpaid "i", unpaid "j"])
      (payByTransaction 0 "i" "a" "0x1" ++ payByTransaction 1 "j" "b" "0x2")).map
        (fun last => (succeededFor last "a", succeededFor last "b")) = some (some ("i", "0x1"), some ("j", "0x2")) := by
    decide +kernel
  obtain ⟨last, ran, succeeded⟩ := map_eq_some_iff.mp evaluated
  refine ⟨last, ran, succeeded, transaction_pays_one_invoice "0xc" ownerOf rfl rfl ?_ ?_ ran⟩
  · rw [payments_serviceWith]
    exact fun _ _ found => nomatch found
  · intro n invoiceID paymentMethod hash called named
    simp only [payByTransaction, mem_append, mem_cons, mem_replicate, reduceCtorEq, and_false, or_false,
      PaymentEvent.call.injEq] at called
    rcases called with ⟨-, rfl, rfl⟩ | ⟨-, rfl, rfl⟩
    · cases named
      rfl
    · cases named
      rfl

/-- In every orderly run from an idle checker, for every processor: no step of the checker or of the clean-up overwrites
a payment that was stored as succeeded as failed, or drops the entry of one that is stored as succeeded before its
invoice was stored as paid. -/
theorem pending_checks_respect {World : Type} (process : PaymentProvider World) {s : PaymentService}
    {events : List (PaymentEvent World)} (idle : s.checking = .idle)
    (logged : ∀ id payment, s.storage.payments.lookup id = some payment → payment.status = .succeeded → EverSucceeded s id)
    (keyed : ∀ id entry, s.pendingPayments.lookup id = some entry → entry.paymentID = id)
    (orderly : (paymentMachine process).Meets Orderly s events) :
    ∀ before event after mid next, events = before ++ event :: after →
      (paymentMachine process).run s before = some mid → (paymentMachine process).step mid event = some next →
        isRoutine event → Respects mid next := by
  rintro before event after mid next rfl ran step routine
  have initial : Tidy s := by
    refine ⟨logged, keyed, ?_, ?_⟩
    · rw [idle]
      exact nofun
    · rw [idle]
      trivial
  obtain ⟨first, rest⟩ := orderly.of_append ran
  have tidy : Tidy mid := LabeledMachine.invariant_of_meets Tidy
    (fun _ _ _ tidy orderly step => tidy.step orderly step) initial first ran
  exact tidy.respects rest.1 routine step

def trackedPayment : Payment := { id := "a", invoiceID := "i", amount := 5, status := .pending, metadata := some ∅ }

def trackedEntry : PendingPayment := { paymentID := "a", invoiceID := "i", timeoutAt := ⟨paymentTimeout⟩ }

def oneTracked : PaymentService where
  storage := (PaymentStorage.empty.putInvoice { id := "i", totalAmount := 5, status := .sent }).putPayment trackedPayment
  pendingPayments := AList.insert "a" trackedEntry ∅
  now := ⟨0⟩
  calls := ∅
  checking := .idle
  log := []

def refuses : PaymentProvider Unit := fun _ _ => .error "refused"

def lateCheck : List (PaymentEvent Unit) :=
  [.setStatus "a" .succeeded, .advance 1800000000001, .check .stored, .checkStep none, .checkStep none]

def faultyCheck : List (PaymentEvent Unit) :=
  [.setStatus "a" .succeeded, .check .stored, .checkStep none, .checkStep none, .checkStep (some "unavailable")]

def observed (events : List (PaymentEvent Unit)) :
    Option (Option PaymentStatus × Option PaymentStatus × Option String × Bool × List Stored) :=
  ((paymentMachine refuses).run oneTracked events).bind fun mid =>
    ((paymentMachine refuses).step mid (.checkStep none)).map fun next =>
      ((mid.storage.payments.lookup "a").map Payment.status, (next.storage.payments.lookup "a").map Payment.status,
        (mid.pendingPayments.lookup "a").map PendingPayment.invoiceID, (next.pendingPayments.lookup "a").isSome, mid.log)

theorem succeeded_payment_lost : (∃ mid next, (paymentMachine refuses).run oneTracked lateCheck = some mid ∧
      (paymentMachine refuses).step mid (.checkStep none) = some next ∧ ¬ Respects mid next) ∧
    ∃ mid next, (paymentMachine refuses).run oneTracked faultyCheck = some mid ∧
      (paymentMachine refuses).step mid (.checkStep none) = some next ∧ ¬ Respects mid next := by
  have late : observed lateCheck = some (some .succeeded, some .failed, some "i", true, [.payment "a" .succeeded]) := by
    decide +kernel
  have faulty : observed faultyCheck =
      some (some .succeeded, some .succeeded, some "i", false, [.payment "a" .succeeded]) := by decide +kernel
  constructor
  · obtain ⟨mid, ran, taken⟩ := bind_eq_some_iff.mp late
    obtain ⟨next, step, seen⟩ := map_eq_some_iff.mp taken
    simp only [mk.injEq] at seen
    obtain ⟨before, after, _, _, log⟩ := seen
    refine ⟨mid, next, ran, step, fun respects => ?_⟩
    obtain ⟨payment, found, failed⟩ := map_eq_some_iff.mp after
    have succeeded : EverSucceeded mid "a" := by
      rw [EverSucceeded, log]
      exact mem_singleton.mpr rfl
    obtain ⟨old, there, alsoFailed⟩ := respects.keeps "a" payment succeeded found failed
    rw [there, map_some, alsoFailed] at before
    cases before
  · obtain ⟨mid, ran, taken⟩ := bind_eq_some_iff.mp faulty
    obtain ⟨next, step, seen⟩ := map_eq_some_iff.mp taken
    simp only [mk.injEq] at seen
    obtain ⟨before, _, tracked, dropped, log⟩ := seen
    refine ⟨mid, next, ran, step, fun respects => ?_⟩
    obtain ⟨payment, found, succeeded⟩ := map_eq_some_iff.mp before
    obtain ⟨entry, there, ofInvoice⟩ := map_eq_some_iff.mp tracked
    have paid := respects.drops "a" entry payment there (not_isSome_iff_eq_none.mp (by simp [dropped])) found succeeded
    rw [EverPaid, log, mem_singleton] at paid
    cases paid

theorem eq_of_lookup_singleton {γ : Type} {key id : String} (value : γ) {found : γ}
    (read : (AList.insert key value (∅ : AList fun _ : String => γ)).lookup id = some found) : id = key ∧ found = value := by
  rcases AList.lookup_insert_eq_some read with ⟨same, rfl⟩ | ⟨-, absent⟩
  · exact ⟨same, rfl⟩
  · cases absent

instance decidableEverPaid (s : PaymentService) (id : String) : Decidable (EverPaid s id) := inferInstanceAs (Decidable (_ ∈ _))

instance decidableEverSucceeded (s : PaymentService) (id : String) : Decidable (EverSucceeded s id) :=
  inferInstanceAs (Decidable (_ ∈ _))

instance decidableDropping (s : PaymentService) (id : String) : Decidable (Dropping s id) := by
  unfold Dropping
  split <;> infer_instance

instance decidableCheckRelies (s : PaymentService) (fault : Option String) : Decidable (CheckRelies s fault) := by
  unfold CheckRelies
  split <;> infer_instance

/-- What makes a status update and a step of the checker orderly. -/
def Attended (s : PaymentService) : PaymentEvent Unit → Prop
  | .setStatus paymentID _ => ¬ Dropping s paymentID
  | .check _ => True
  | .checkStep fault => CheckRelies s fault ∧ checkWrites s = none
  | _ => False

instance decidableAttended (s : PaymentService) : ∀ event, Decidable (Attended s event)
  | .setStatus .. => inferInstanceAs (Decidable (¬ _))
  | .check _ => isTrue trivial
  | .checkStep _ => inferInstanceAs (Decidable (_ ∧ _))
  | .call .. | .callStep .. | .cleanup | .advance _ => isFalse id

theorem orderly_of_attended (s : PaymentService) (event : PaymentEvent Unit) (attended : Attended s event) :
    Orderly s event := by
  cases event with
  | setStatus paymentID status =>
    refine ⟨fun payment stored _ => ?_, fun _ _ _ _ _ other => (nomatch other), fun _ other => (nomatch other),
      fun other => (nomatch other)⟩
    obtain ⟨old, found, rfl⟩ := map_eq_some_iff.mp stored
    dsimp only
    rw [s.storage.id_of_payment paymentID old found]
    exact attended
  | check order =>
    exact ⟨fun _ stored => (nomatch stored), fun _ _ _ _ _ other => (nomatch other), fun _ other => (nomatch other),
      fun other => (nomatch other)⟩
  | checkStep fault =>
    refine ⟨fun payment stored => ?_, fun _ _ _ _ _ other => (nomatch other), fun fault' same => ?_,
      fun other => (nomatch other)⟩
    · rw [written, attended.2, unlessFault_none_right] at stored
      cases stored
    · cases same
      exact attended.1
  | _ => exact attended.elim

/-- The payment succeeds, the checker reads this and stores the invoice as paid. -/
def settles : List (PaymentEvent Unit) := [.setStatus "a" .succeeded, .check .stored] ++ List.replicate 5 (.checkStep none)

theorem pending_checks_respect_settled : ∃ mid next, (paymentMachine refuses).run oneTracked settles = some mid ∧
      (paymentMachine refuses).step mid (.checkStep none) = some next ∧
      mid.log = [.invoice "i" .paid, .payment "a" .succeeded] ∧ (mid.pendingPayments.lookup "a").isSome = true ∧
      (next.pendingPayments.lookup "a").isSome = false ∧ Respects mid next := by
  have evaluated : (((paymentMachine refuses).run oneTracked settles).bind fun mid =>
      ((paymentMachine refuses).step mid (.checkStep none)).map fun next => (mid.log,
        (mid.pendingPayments.lookup "a").isSome, (next.pendingPayments.lookup "a").isSome)) =
      some ([.invoice "i" .paid, .payment "a" .succeeded], true, false) := by decide +kernel
  obtain ⟨mid, ran, taken⟩ := bind_eq_some_iff.mp evaluated
  obtain ⟨next, step, seen⟩ := map_eq_some_iff.mp taken
  obtain ⟨log, tracked⟩ := mk.inj seen
  obtain ⟨there, gone⟩ := mk.inj tracked
  have attended : (paymentMachine refuses).Meets Attended oneTracked (settles ++ [.checkStep none]) := by decide +kernel
  refine ⟨mid, next, ran, step, log, there, gone, pending_checks_respect refuses rfl (fun id payment found succeeded => ?_)
    (fun id entry found => ?_) (attended.imp orderly_of_attended) settles _ [] mid next rfl ran step trivial⟩
  · obtain ⟨_, rfl⟩ := eq_of_lookup_singleton trackedPayment found
    cases succeeded
  · obtain ⟨rfl, rfl⟩ := eq_of_lookup_singleton trackedEntry found
    rfl

variable {World : Type} {processors : Processors World} {world : World} {paymentID : String} {amount : ℤ}

def processedBy (processors : Processors World) (calls : List (World × PaymentRequest)) : List (String × String) :=
  calls.filterMap fun call =>
    match processWith processors call.1 call.2 with
    | .ok result => call.2.paymentMethod.map fun method => (method.provider, result.paymentID)
    | .error _ => none

/-- The configured provider with this name refunds the payment when it is asked. -/
def Refunds (processors : Processors World) (world : World) (paymentID : String) (amount : ℤ) (name : String) : Prop :=
  ∃ provider, processors.lookup name = some provider ∧ (provider.refundPayment world paymentID amount).isOk = true

/-- The provider that refunds the payment, if one does. -/
def refunder (processors : Processors World) (order : MapOrder) (world : World) (paymentID : String) (amount : ℤ) :
    Option String := (refundPayment processors order world paymentID amount).1.toOption.map Prod.fst

theorem refundLoop_asked_subset (entries : List (Σ _ : String, Provider World)) :
    (refundLoop world paymentID amount entries).2 ⊆ entries.map Sigma.fst := by
  induction entries with
  | nil => exact List.Subset.refl _
  | cons entry rest ih =>
    rw [refundLoop, map_cons]
    split
    · exact cons_subset_cons _ (nil_subset _)
    · exact cons_subset_cons _ ih

theorem refunder_refundLoop (entries : List (Σ _ : String, Provider World)) :
    (refundLoop world paymentID amount entries).1.toOption.map Prod.fst =
      (entries.find? fun entry => (entry.2.refundPayment world paymentID amount).isOk).map Sigma.fst := by
  induction entries with
  | nil => rfl
  | cons entry rest ih =>
    rw [refundLoop]
    cases refund : entry.2.refundPayment world paymentID amount with
    | ok result => rw [find?_cons_of_pos (by rw [refund]; rfl)]; rfl
    | error err => rw [find?_cons_of_neg (by rw [refund]; exact Bool.false_ne_true)]; exact ih

variable {name : String}

theorem refunds_of_refunder {order : MapOrder}
    (refunded : refunder processors order world paymentID amount = some name) :
    Refunds processors world paymentID amount name := by
  rw [refunder, refundPayment, refunder_refundLoop] at refunded
  obtain ⟨entry, found, rfl⟩ := map_eq_some_iff.mp refunded
  have visited := (order.mem_visit _ _ _).mp (mem_of_find?_eq_some found)
  have succeeds := find?_some found
  exact ⟨entry.2, AList.mem_entries_iff.mp visited, succeeds⟩

section

variable (refunds : Refunds processors world paymentID amount name)

include refunds

theorem refunder_isSome_of_refunds (order : MapOrder) :
    (refunder processors order world paymentID amount).isSome = true := by
  obtain ⟨provider, found, succeeds⟩ := refunds
  rw [refunder, refundPayment, refunder_refundLoop, isSome_map, find?_isSome]
  exact ⟨⟨name, provider⟩, (order.mem_visit _ _ _).mpr (AList.mem_entries_iff.mpr found), succeeds⟩

theorem exists_refunder : ∃ order, refunder processors order world paymentID amount = some name := by
  obtain ⟨provider, found, succeeds⟩ := refunds
  have member : (⟨name, provider⟩ : Σ _ : String, Provider World) ∈ processors.entries := AList.mem_entries_iff.mpr found
  obtain ⟨order, rest, first⟩ := MapOrder.exists_visit_eq_cons [] member
  refine ⟨order, ?_⟩
  rw [refunder, refundPayment, refunder_refundLoop, first, find?_cons, succeeds]
  rfl

end

/-- Only providers that have produced the payment are asked in every order, exactly if all configured providers have
produced it; and the same provider refunds in every order, exactly if no two of them would. -/
theorem refund_provider_iff (processors : Processors World) (calls : List (World × PaymentRequest)) (world : World)
    (paymentID : String) (amount : ℤ) : ((∀ order, ∀ name ∈ (refundPayment processors order world paymentID amount).2,
        (name, paymentID) ∈ processedBy processors calls) ↔
      ∀ name ∈ processors.keys, (name, paymentID) ∈ processedBy processors calls) ∧
    ((∀ order order', refunder processors order world paymentID amount =
        refunder processors order' world paymentID amount) ↔
      ∀ name name', Refunds processors world paymentID amount name → Refunds processors world paymentID amount name' →
        name = name') := by
  constructor
  · constructor
    · intro produced name configured
      obtain ⟨entry, member, rfl⟩ := mem_map.mp configured
      obtain ⟨order, rest, first⟩ := MapOrder.exists_visit_eq_cons [] member
      refine produced order entry.1 ?_
      rw [refundPayment, first, refundLoop]
      split <;> exact mem_cons_self
    · intro produced order name asked
      obtain ⟨entry, visited, rfl⟩ := mem_map.mp (refundLoop_asked_subset _ asked)
      exact produced entry.1 (mem_map_of_mem ((order.mem_visit _ _ _).mp visited))
  · constructor
    · intro same name name' refunds refunds'
      obtain ⟨order, first⟩ := exists_refunder refunds
      obtain ⟨order', first'⟩ := exists_refunder refunds'
      exact some.inj (first.symm.trans ((same order order').trans first'))
    · intro one order order'
      refine Option.ext fun name => ⟨fun refunded => ?_, fun refunded => ?_⟩
      all_goals
        have refunds := refunds_of_refunder refunded
        obtain ⟨other, also⟩ := isSome_iff_exists.mp (refunder_isSome_of_refunds refunds _)
        rw [also, one other name (refunds_of_refunder also) refunds]

def twoProviders : Processors ProviderWorld :=
  ((∅ : Processors ProviderWorld).insert "stripe" stripeProvider).insert "polygon" (polygonProvider "0xc")

def paidWorld : ProviderWorld where
  transaction hash := .ok ⟨hash, "0xa", "0xc", 5, 0, 1, 1⟩
  confirmed := .ok true
  paymentID := "pay_1"
  now := .zero
  refundID := "ref_1"

def polygonRequest : PaymentRequest where
  invoiceID := "i"
  amount := 5
  currency := "MATIC"
  paymentMethod := some {
    provider := "polygon"
    details := some (((∅ : Details).insert "transaction_hash" "0x1").insert "from_address" "0xa") }
  metadata := ∅

theorem refund_provider_other : processedBy twoProviders [(paidWorld, polygonRequest)] = [("polygon", "pay_1")] ∧
      refunder twoProviders .stored paidWorld "pay_1" 5 = some "polygon" ∧
      refunder twoProviders (.startingAt 1) paidWorld "pay_1" 5 = some "stripe" := by decide +kernel

end IpfsCluster.Soundness
