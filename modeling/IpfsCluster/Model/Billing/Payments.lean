import IpfsCluster.Machine.Run
import IpfsCluster.Model.Api.Types

/-! # Payments

A payment request goes to the provider that its payment method names. The provider for Polygon takes the hash of a
transaction: it fetches the transaction, compares sender, receiver, amount and status, and asks for confirmations. What
the network answers is an input. A refund only names the payment, so the providers are asked in the order of the map
until one of them does not fail.

Calls that pay invoices run at the same time as a goroutine that checks pending payments and one that cleans them up.
Each call to the storage or to the processor is one step, and so is each access to the map of pending payments; between
them the calls and the checker hold copies of records. A call to the storage may fail, and then it does nothing. Others
update payments in the storage, too. The log of what was stored is history.
-/

namespace IpfsCluster.Model.Billing

open Golang Machine
open Api (Time)
open Golang (MapOrder)

abbrev Details := AList fun _ : String => String

inductive PaymentStatus where
  | pending
  | succeeded
  | failed
  | cancelled
  | refunded
deriving DecidableEq, Repr

inductive InvoiceStatus where
  | draft
  | sent
  | paid
  | overdue
  | cancelled
  | refunded
deriving DecidableEq, Repr

structure PaymentMethod where
  id : String := ""
  type : String := ""
  provider : String
  details : Option Details := none
deriving DecidableEq

structure Invoice where
  id : String
  number : String := ""
  ownerID : String := ""
  tenantID : String := ""
  totalAmount : ℤ
  currency : String := ""
  status : InvoiceStatus
  paidAt : Option Time := none
  paymentMethod : Option PaymentMethod := none
  updatedAt : Time := .zero
deriving DecidableEq

structure Payment where
  id : String
  invoiceID : String
  ownerID : String := ""
  amount : ℤ
  currency : String := ""
  status : PaymentStatus
  paymentMethod : Option PaymentMethod := none
  transactionID : String := ""
  processedAt : Time := .zero
  metadata : Option Details := none
  createdAt : Time := .zero
  updatedAt : Time := .zero
deriving DecidableEq

structure PaymentRequest where
  invoiceID : String
  amount : ℤ
  currency : String
  paymentMethod : Option PaymentMethod
  metadata : Details

structure PaymentResult where
  paymentID : String
  status : PaymentStatus
  amount : ℤ
  currency : String
  processedAt : Time
  transactionID : String
  metadata : Option Details
deriving DecidableEq

/-- A provider answers a request; what it learns from the world is an input. -/
abbrev PaymentProvider (World : Type) := World → PaymentRequest → Except String PaymentResult

def processPayment {World : Type} (processors : String → Option (PaymentProvider World)) : PaymentProvider World :=
  fun world request =>
    match request.paymentMethod with
    | none => .error "payment method is required"
    | some paymentMethod =>
      match processors paymentMethod.provider with
      | none => .error ("payment provider not supported: " ++ paymentMethod.provider)
      | some provider =>
        match provider world request with
        | .error err => .error ("payment processing failed: " ++ err)
        | .ok result => .ok result

section

structure EthereumTransaction where
  hash : String
  fromAddr : String
  toAddr : String
  value : ℤ
  gasUsed : ℕ
  blockNumber : ℕ
  status : ℤ

structure PolygonWorld where
  /-- The transaction with a hash. -/
  transaction : String → Except String EthereumTransaction
  confirmed : Except String Bool
  paymentID : String
  now : Time

variable (contractAddr : String)

def getTransaction (world : PolygonWorld) (txHash : String) : Except String EthereumTransaction :=
  if txHash = "" then .error "transaction hash is required" else world.transaction txHash

def validateTransaction (tx : EthereumTransaction) (request : PaymentRequest) (fromAddr : String) : Option String :=
  if tx.fromAddr ≠ fromAddr then
    some ("transaction from address mismatch: expected " ++ fromAddr ++ ", got " ++ tx.fromAddr)
  else if tx.toAddr ≠ contractAddr then
    some ("transaction to address mismatch: expected " ++ contractAddr ++ ", got " ++ tx.toAddr)
  else if tx.value ≠ request.amount then
    some ("transaction amount mismatch: expected " ++ request.amount.repr ++ ", got " ++ tx.value.repr)
  else if tx.status ≠ 1 then some ("transaction failed with status: " ++ tx.status.repr)
  else none

def polygonResult (world : PolygonWorld) (request : PaymentRequest) (txHash fromAddr : String)
    (tx : EthereumTransaction) (confirmed : Bool) : PaymentResult where
  paymentID := world.paymentID
  status := if confirmed then .succeeded else .pending
  amount := request.amount
  currency := "MATIC"
  processedAt := world.now
  transactionID := txHash
  metadata := some (((((∅ : Details).insert "network" "polygon").insert "contract_address" contractAddr).insert
    "from_address" fromAddr |>.insert "block_number" tx.blockNumber.repr).insert "gas_used" tx.gasUsed.repr)

def processPolygon : PaymentProvider PolygonWorld := fun world request =>
  match request.paymentMethod.bind PaymentMethod.details with
  | none => .error "payment method details required for Polygon payments"
  | some details =>
    match details.lookup "transaction_hash" with
    | none => .error "transaction_hash required in payment method details"
    | some txHash =>
      match details.lookup "from_address" with
      | none => .error "from_address required in payment method details"
      | some fromAddr =>
        match getTransaction world txHash with
        | .error err => .error ("failed to get transaction: " ++ err)
        | .ok tx =>
          match validateTransaction contractAddr tx request fromAddr with
          | some err => .error ("transaction validation failed: " ++ err)
          | none =>
            match world.confirmed with
            | .error err => .error ("failed to wait for confirmations: " ++ err)
            | .ok confirmed => .ok (polygonResult contractAddr world request txHash fromAddr tx confirmed)

def polygonProcessors (name : String) : Option (PaymentProvider PolygonWorld) :=
  if name = "polygon" then some (processPolygon contractAddr) else none

end

structure RefundResult where
  refundID : String
  paymentID : String
  amount : ℤ
  currency : String
  status : String
  processedAt : Time
  transactionID : String
deriving DecidableEq

structure Provider (World : Type) where
  processPayment : PaymentProvider World
  refundPayment : World → String → ℤ → Except String RefundResult

abbrev Processors (World : Type) := AList fun _ : String => Provider World

section

variable {World : Type} (processors : Processors World)

def processWith (world : World) (request : PaymentRequest) : Except String PaymentResult :=
  processPayment (fun name => (processors.lookup name).map Provider.processPayment) world request

/-- The loop over the providers, with the names of those that were asked. -/
def refundLoop (world : World) (paymentID : String) (amount : ℤ) :
    List (Σ _ : String, Provider World) → Except String (String × RefundResult) × List String
  | [] => (.error "refund failed: payment not found or provider error", [])
  | ⟨providerName, provider⟩ :: rest =>
    match provider.refundPayment world paymentID amount with
    | .ok result => (.ok (providerName, result), [providerName])
    | .error _ =>
      let (refund, asked) := refundLoop world paymentID amount rest
      (refund, providerName :: asked)

def refundPayment (order : MapOrder) (world : World) (paymentID : String) (amount : ℤ) :
    Except String (String × RefundResult) × List String :=
  refundLoop world paymentID amount (order.visit [] processors.entries)

end

structure ProviderWorld extends PolygonWorld where
  refundID : String

/-- Providers refund every payment that they are asked for, in their own currency. -/
def refundVia (currency transactionPrefix : String) (world : ProviderWorld) (paymentID : String) (amount : ℤ) :
    Except String RefundResult :=
  .ok {
    refundID := world.refundID
    paymentID := paymentID
    amount := amount
    currency := currency
    status := "succeeded"
    processedAt := world.now
    transactionID := transactionPrefix ++ world.refundID }

def stripeRefundPayment := refundVia "USD" "stripe_refund_"

def filecoinRefundPayment := refundVia "FIL" "fil_refund_"

def polygonRefundPayment := refundVia "MATIC" "polygon_refund_"

def arbitrumRefundPayment := refundVia "ETH" "arbitrum_refund_"

/-- Process a payment via Stripe, which is simulated: with a payment method, it is confirmed at once. -/
def processStripe : PaymentProvider ProviderWorld := fun world request =>
  .ok {
    paymentID := world.paymentID
    status := if request.paymentMethod.isSome then .succeeded else .pending
    amount := request.amount
    currency := request.currency
    processedAt := world.now
    transactionID := "stripe_" ++ world.paymentID
    metadata := some request.metadata }

def stripeProvider : Provider ProviderWorld := ⟨processStripe, stripeRefundPayment⟩

def polygonProvider (contractAddr : String) : Provider ProviderWorld where
  processPayment world := processPolygon contractAddr world.toPolygonWorld
  refundPayment := polygonRefundPayment

/-- Invoices and payments by their identifiers. -/
structure PaymentStorage where
  invoices : AList fun _ : String => Invoice
  payments : AList fun _ : String => Payment
  id_of_invoice : ∀ key invoice, invoices.lookup key = some invoice → invoice.id = key
  id_of_payment : ∀ key payment, payments.lookup key = some payment → payment.id = key

inductive Stored where
  | payment (id : String) (status : PaymentStatus)
  | invoice (id : String) (status : InvoiceStatus)
deriving DecidableEq, Repr

namespace PaymentStorage

def empty : PaymentStorage where
  invoices := ∅
  payments := ∅
  id_of_invoice _ _ found := by cases found
  id_of_payment _ _ found := by cases found

variable (st : PaymentStorage)

def getInvoice (fault : Option String) (invoiceID : String) : Except String Invoice :=
  match fault with
  | some err => .error err
  | none =>
    match st.invoices.lookup invoiceID with
    | none => .error ("invoice not found: " ++ invoiceID)
    | some invoice => .ok invoice

def getPayment (fault : Option String) (paymentID : String) : Except String Payment :=
  match fault with
  | some err => .error err
  | none =>
    match st.payments.lookup paymentID with
    | none => .error ("payment not found: " ++ paymentID)
    | some payment => .ok payment

def putInvoice (invoice : Invoice) : PaymentStorage :=
  { st with
    invoices := st.invoices.insert invoice.id invoice
    id_of_invoice := fun key other found => by
      by_cases same : key = invoice.id
      · rw [same, AList.lookup_insert] at found
        rw [same, Option.some.inj found]
      · exact st.id_of_invoice key other ((AList.lookup_insert_ne same).symm.trans found) }

def putPayment (payment : Payment) : PaymentStorage :=
  { st with
    payments := st.payments.insert payment.id payment
    id_of_payment := fun key other found => by
      by_cases same : key = payment.id
      · rw [same, AList.lookup_insert] at found
        rw [same, Option.some.inj found]
      · exact st.id_of_payment key other ((AList.lookup_insert_ne same).symm.trans found) }

end PaymentStorage

structure PendingPayment where
  paymentID : String
  invoiceID : String
  provider : String := ""
  amount : ℤ := 0
  currency : String := ""
  timeoutAt : Time
deriving DecidableEq

/-- What marking an invoice as paid does next. -/
inductive UpdateStage where
  | getInvoice
  | getPayment (invoice : Invoice)
  | storeInvoice (invoice : Invoice)
  | done (err : Option String)

/-- What a call that pays an invoice does next. -/
inductive CallStage where
  | getInvoice
  | process (invoice : Invoice)
  | store (invoice : Invoice) (result : PaymentResult)
  | track (result : PaymentResult)
  | update (stage : UpdateStage) (result : PaymentResult)
  | done (outcome : Except String PaymentResult)

structure InvoiceCall where
  invoiceID : String
  paymentMethod : Option PaymentMethod
  stage : CallStage

/-- What the checker of pending payments does next, with the entries that are left of its list. -/
inductive CheckStage where
  | idle
  | looking (rest : List PendingPayment)
  | timedOut (pending : PendingPayment) (rest : List PendingPayment)
  | failing (payment : Payment) (pending : PendingPayment) (rest : List PendingPayment)
  | reading (pending : PendingPayment) (rest : List PendingPayment)
  | settling (stage : UpdateStage) (pending : PendingPayment) (rest : List PendingPayment)
  | removing (pending : PendingPayment) (rest : List PendingPayment)

structure PaymentService where
  storage : PaymentStorage
  pendingPayments : AList fun _ : String => PendingPayment
  now : Time
  calls : AList fun _ : ℕ => InvoiceCall
  checking : CheckStage
  log : List Stored

/-- The time after which a pending payment fails, in nanoseconds. -/
def paymentTimeout : ℤ := 30 * 60 * 10 ^ 9

/-- How long a pending payment is kept after that. -/
def keepAfterTimeout : ℤ := 60 * 60 * 10 ^ 9

namespace PaymentService

variable (s : PaymentService)

def storePayment (fault : Option String) (payment : Payment) : PaymentService :=
  match fault with
  | some _ => s
  | none => { s with storage := s.storage.putPayment payment, log := .payment payment.id payment.status :: s.log }

def storeInvoice (fault : Option String) (invoice : Invoice) : PaymentService :=
  match fault with
  | some _ => s
  | none => { s with storage := s.storage.putInvoice invoice, log := .invoice invoice.id invoice.status :: s.log }

/-- One step of marking an invoice as paid. -/
def updateInvoicePaymentStatus (fault : Option String) (invoiceID paymentID : String) :
    UpdateStage → PaymentService × UpdateStage
  | .getInvoice =>
    match s.storage.getInvoice fault invoiceID with
    | .error err => (s, .done (some ("failed to get invoice: " ++ err)))
    | .ok invoice =>
      let paid := { invoice with status := .paid, paidAt := some s.now, updatedAt := s.now }
      (s, if paid.paymentMethod = none then .getPayment paid else .storeInvoice paid)
  | .getPayment invoice =>
    match s.storage.getPayment fault paymentID with
    | .error _ => (s, .storeInvoice invoice)
    | .ok payment => (s, .storeInvoice { invoice with paymentMethod := payment.paymentMethod })
  | .storeInvoice invoice => (s.storeInvoice fault invoice, .done fault)
  | .done err => (s, .done err)

def requestOf (call : InvoiceCall) (invoice : Invoice) : PaymentRequest where
  invoiceID := call.invoiceID
  amount := invoice.totalAmount
  currency := invoice.currency
  paymentMethod := call.paymentMethod
  metadata := ((((∅ : Details).insert "invoice_id" call.invoiceID).insert "invoice_number" invoice.number).insert
    "owner_id" invoice.ownerID).insert "tenant_id" invoice.tenantID

def paymentOf (call : InvoiceCall) (invoice : Invoice) (result : PaymentResult) : Payment where
  id := result.paymentID
  invoiceID := call.invoiceID
  ownerID := invoice.ownerID
  amount := result.amount
  currency := result.currency
  status := result.status
  paymentMethod := call.paymentMethod
  transactionID := result.transactionID
  processedAt := result.processedAt
  metadata := result.metadata
  createdAt := s.now
  updatedAt := s.now

/-- What a call does once its payment is stored, or storing it has failed. -/
def afterStore (result : PaymentResult) : CallStage :=
  match result.status with
  | .pending => .track result
  | .succeeded => .update .getInvoice result
  | .failed | .cancelled | .refunded => .done (.ok result)

def afterUpdate (result : PaymentResult) : UpdateStage → CallStage
  | .done _ => .done (.ok result)
  | stage => .update stage result

def trackPendingPayment (call : InvoiceCall) (paymentMethod : PaymentMethod) (result : PaymentResult) : PaymentService :=
  { s with pendingPayments := s.pendingPayments.insert result.paymentID {
      paymentID := result.paymentID
      invoiceID := call.invoiceID
      provider := paymentMethod.provider
      amount := result.amount
      currency := result.currency
      timeoutAt := ⟨s.now.nanos + paymentTimeout⟩ } }

/-- One step of a call that pays an invoice; a pending payment without a payment method is a nil dereference. -/
def processInvoicePayment {World : Type} (process : PaymentProvider World) (fault : Option String) (world : World)
    (call : InvoiceCall) : Option (PaymentService × CallStage) :=
  match call.stage with
  | .getInvoice =>
    match s.storage.getInvoice fault call.invoiceID with
    | .error err => some (s, .done (.error ("failed to get invoice: " ++ err)))
    | .ok invoice =>
      if invoice.status = .paid then some (s, .done (.error "invoice is already paid")) else some (s, .process invoice)
  | .process invoice =>
    match process world (requestOf call invoice) with
    | .error err => some (s, .done (.error ("payment processing failed: " ++ err)))
    | .ok result => some (s, .store invoice result)
  | .store invoice result => some (s.storePayment fault (s.paymentOf call invoice result), afterStore result)
  | .track result =>
    match call.paymentMethod with
    | none => none
    | some paymentMethod => some (s.trackPendingPayment call paymentMethod result, .done (.ok result))
  | .update stage result =>
    let after := s.updateInvoicePaymentStatus fault call.invoiceID result.paymentID stage
    some (after.1, afterUpdate result after.2)
  | .done _ => none

/-- A payment that has timed out; writing to a nil map is a panic. -/
def timedOutPayment (payment : Payment) : Option Payment :=
  payment.metadata.map fun metadata =>
    { payment with
      status := .failed
      updatedAt := s.now
      metadata := some (metadata.insert "timeout_reason" "payment_timeout") }

/-- The checker removes the entry once the invoice is marked, or marking it has failed. -/
def afterSettling (pending : PendingPayment) (rest : List PendingPayment) : UpdateStage → CheckStage
  | .done _ => .removing pending rest
  | stage => .settling stage pending rest

/-- One step of the checker. -/
def checkPendingPayments (fault : Option String) : Option (PaymentService × CheckStage) :=
  match s.checking with
  | .idle => none
  | .looking [] => some (s, .idle)
  | .looking (pending :: rest) =>
    some (s, if s.now.after pending.timeoutAt then .timedOut pending rest else .reading pending rest)
  | .timedOut pending rest =>
    match s.storage.getPayment fault pending.paymentID with
    | .error _ => some (s, .removing pending rest)
    | .ok payment => (s.timedOutPayment payment).map fun failed => (s, .failing failed pending rest)
  | .failing payment pending rest => some (s.storePayment fault payment, .removing pending rest)
  | .reading pending rest =>
    match s.storage.getPayment fault pending.paymentID with
    | .error _ => some (s, .looking rest)
    | .ok payment =>
      match payment.status with
      | .pending => some (s, .looking rest)
      | .succeeded => some (s, .settling .getInvoice pending rest)
      | .failed | .cancelled | .refunded => some (s, .removing pending rest)
  | .settling stage pending rest =>
    let after := s.updateInvoicePaymentStatus fault pending.invoiceID pending.paymentID stage
    some (after.1, afterSettling pending rest after.2)
  | .removing pending rest =>
    some ({ s with pendingPayments := s.pendingPayments.erase pending.paymentID }, .looking rest)

def isStale (pending : PendingPayment) : Bool := s.now.after ⟨pending.timeoutAt.nanos + keepAfterTimeout⟩

def cleanupExpiredPayments : PaymentService :=
  { s with pendingPayments := s.pendingPayments.entries.foldl (fun left entry =>
      if s.isStale entry.2 then left.erase entry.1 else left) s.pendingPayments }

end PaymentService

inductive PaymentEvent (World : Type) where
  | call (n : ℕ) (invoiceID : String) (paymentMethod : Option PaymentMethod)
  | callStep (n : ℕ) (fault : Option String) (world : World)
  | setStatus (paymentID : String) (status : PaymentStatus)
  | check (order : MapOrder)
  | checkStep (fault : Option String)
  | cleanup
  | advance (nanos : ℕ)

namespace PaymentService

variable {World : Type} (process : PaymentProvider World) (s : PaymentService)

def stepCall (n : ℕ) (fault : Option String) (world : World) : Option PaymentService :=
  match s.calls.lookup n with
  | none => none
  | some call =>
    (s.processInvoicePayment process fault world call).map fun after =>
      { after.1 with calls := s.calls.insert n { call with stage := after.2 } }

/-- Another party updates the status of a payment in the storage. -/
def setStatus (paymentID : String) (status : PaymentStatus) : Option PaymentService :=
  (s.storage.payments.lookup paymentID).map fun payment => s.storePayment none { payment with status := status }

/-- The checker starts over, with all entries in some order. -/
def startCheck (order : MapOrder) : Option PaymentService :=
  match s.checking with
  | .idle => some { s with checking := .looking ((order.visit [] s.pendingPayments.entries).map Sigma.snd) }
  | _ => none

end PaymentService

def paymentMachine {World : Type} (process : PaymentProvider World) :
    LabeledMachine PaymentService (PaymentEvent World) where
  step s
    | .call n invoiceID paymentMethod =>
      if n ∈ s.calls then none else some { s with calls := s.calls.insert n ⟨invoiceID, paymentMethod, .getInvoice⟩ }
    | .callStep n fault world => s.stepCall process n fault world
    | .setStatus paymentID status => s.setStatus paymentID status
    | .check order => s.startCheck order
    | .checkStep fault => (s.checkPendingPayments fault).map fun after => { after.1 with checking := after.2 }
    | .cleanup => some s.cleanupExpiredPayments
    | .advance nanos => some { s with now := ⟨s.now.nanos + nanos⟩ }

end IpfsCluster.Model.Billing
