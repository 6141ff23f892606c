import IpfsCluster.Model.State.ScyllaTransfer

/-! # Every export of an open state ends in a panic, unless it is stuck before

The pins that are neither written nor given up are those in the channel and those not yet listed. If what is left unread
when the writing goroutine gives up fits into the channel, the listing goroutine gets to close it a second time.
-/

namespace IpfsCluster.Proofs.State

open Model Model.Api Model.Scyllastate Golang Machine Option FeederStage List

section

variable (codecs : PinCodecs)

/-- How many pins follow the first one that cannot be serialized. -/
def leftUnread : List Pin → Option ℕ
  | [] => none
  | pin :: rest =>
    match serializePin codecs pin with
    | .error _ => some rest.length
    | .ok _ => leftUnread rest

def unread (header : Except Error Bytes) (pins : List Pin) : Option ℕ :=
  match header with
  | .error _ => some pins.length
  | .ok _ => leftUnread codecs pins

def Stuck (header : Except Error Bytes) (pins : List Pin) (capacity : ℕ) : Prop :=
  ∃ left, unread codecs header pins = some left ∧ capacity < left

variable {codecs}

theorem lt_length_of_leftUnread {pins : List Pin} {left : ℕ} (gaveUp : leftUnread codecs pins = some left) :
    left < pins.length := by
  induction pins with
  | nil => cases gaveUp
  | cons pin rest ih =>
    unfold leftUnread at gaveUp
    rw [length_cons]
    split at gaveUp
    · have same := some.inj gaveUp
      omega
    · have tail := ih gaveUp
      omega

theorem le_length_of_unread {header : Except Error Bytes} {pins : List Pin} {left : ℕ}
    (gaveUp : unread codecs header pins = some left) : left ≤ pins.length := by
  cases header with
  | error err => exact (some.inj gaveUp).ge
  | ok bytes => exact (lt_length_of_leftUnread gaveUp).le

end

variable {e next : Export} {left : Option ℕ}

section

variable {codecs : PinCodecs} {source : ExportSource} {header : Except Error Bytes} {capacity : ℕ}

def pending (e : Export) : List Pin := e.feeder.ch.buffer ++ e.feeder.stage.unsent

/-- The channel is open exactly while the list goes on, and the feeder is never done. -/
def Fed (feeder : Feeder Pin) : Prop :=
  match feeder.stage with
  | .sending _ => feeder.ch.closed = false
  | .ended | .finished | .panicked => feeder.ch.closed = true
  | .done => False

/-- What is pending accounts for what the export leaves unread. -/
def Accounts (codecs : PinCodecs) (header : Except Error Bytes) (left : Option ℕ) (e : Export) : Prop :=
  match e.stage with
  | .header => unread codecs header (pending e) = left
  | .ranging => leftUnread codecs (pending e) = left
  | .returned err => (left = some (pending e).length ∧ err ≠ none) ∨
      (left = none ∧ pending e = [] ∧ e.feeder.ch.closed = true)

structure ExportInv (codecs : PinCodecs) (header : Except Error Bytes) (capacity : ℕ) (left : Option ℕ)
    (e : Export) : Prop where
  fed : Fed e.feeder
  capacity : e.feeder.ch.capacity = capacity
  accounts : Accounts codecs header left e

theorem list_cases (step : e.list source = some next) :
    (∃ item rest, e.feeder.stage = .sending (item :: rest) ∧ next.feeder.stage = .sending rest ∧
        next.feeder.ch.buffer = e.feeder.ch.buffer ++ [item] ∧ next.feeder.ch.closed = false ∧
        next.feeder.ch.capacity = e.feeder.ch.capacity ∧ next.stage = e.stage) ∨
      (e.feeder.stage = .sending [] ∧ next = { e with feeder := ⟨.ended, e.feeder.ch.close⟩ }) ∨
      (e.feeder.stage = .ended ∧
        next = { e with feeder := { e.feeder with stage := .finished }, listErr := source.listErr }) ∨
      (e.feeder.stage = .finished ∧ next = { e with feeder := e.feeder.close }) := by
  obtain ⟨⟨stage, ch⟩, listErr, main, out⟩ := e
  cases stage with
  | sending rest =>
    cases rest with
    | nil => exact .inr (.inl ⟨rfl, (some.inj step).symm⟩)
    | cons item rest =>
      obtain ⟨feeder, listed, rfl⟩ := map_eq_some_iff.mp step
      obtain ⟨sending, buffer, isOpen, sameCapacity⟩ := Feeder.list_sending_eq_some listed
      exact .inl ⟨item, rest, rfl, sending, buffer, isOpen, sameCapacity, rfl⟩
  | ended => exact .inr (.inr (.inl ⟨rfl, (some.inj step).symm⟩))
  | finished => exact .inr (.inr (.inr ⟨rfl, (some.inj step).symm⟩))
  | done => cases step
  | panicked => cases step

theorem accounts_congr (accounts : Accounts codecs header left e) (main : next.stage = e.stage)
    (same : pending next = pending e) (closed : e.feeder.ch.closed = true → next.feeder.ch.closed = true) :
    Accounts codecs header left next := by
  unfold Accounts at accounts ⊢
  rw [main, same]
  cases stage : e.stage with
  | header | ranging => rw [stage] at accounts; exact accounts
  | returned err =>
    rw [stage] at accounts
    exact accounts.imp_right fun ended => ⟨ended.1, ended.2.1, closed ended.2.2⟩

theorem exportInv_list (inv : ExportInv codecs header capacity left e) (step : e.list source = some next) :
    ExportInv codecs header capacity left next := by
  have fed := inv.fed
  unfold Fed at fed
  rcases list_cases step with ⟨item, rest, sending, nextStage, buffer, isOpen, sameCapacity, main⟩ |
    ⟨sending, rfl⟩ | ⟨ended, rfl⟩ | ⟨finished, rfl⟩
  · rw [sending] at fed
    refine ⟨?_, sameCapacity.trans inv.capacity, accounts_congr inv.accounts main ?_ ?_⟩
    · unfold Fed
      rw [nextStage]
      exact isOpen
    · simp [pending, nextStage, sending, buffer, unsent]
    · intro closed
      rw [fed] at closed
      cases closed
  · refine ⟨rfl, inv.capacity, accounts_congr inv.accounts rfl ?_ fun _ => rfl⟩
    simp only [pending, sending, unsent, Chan.close]
  · rw [ended] at fed
    refine ⟨fed, inv.capacity, accounts_congr inv.accounts rfl ?_ id⟩
    simp only [pending, ended, unsent]
  · rw [finished] at fed
    rw [Feeder.close_of_closed fed]
    refine ⟨fed, inv.capacity, accounts_congr inv.accounts rfl ?_ id⟩
    simp only [pending, finished, unsent]

theorem write_cases (step : e.write codecs header = some next) : (e.stage = .header ∧ next.feeder = e.feeder ∧
        ((∃ err, header = .error err ∧ ∃ text, next.stage = .returned (some text)) ∨
          ∃ bytes, header = .ok bytes ∧ next.stage = .ranging)) ∨
      (e.stage = .ranging ∧ ∃ pin, e.feeder.ch.buffer = pin :: next.feeder.ch.buffer ∧
        next.feeder.stage = e.feeder.stage ∧ next.feeder.ch.closed = e.feeder.ch.closed ∧
        next.feeder.ch.capacity = e.feeder.ch.capacity ∧
        ((∃ err, serializePin codecs pin = .error err ∧ ∃ text, next.stage = .returned (some text)) ∨
          ∃ data, serializePin codecs pin = .ok data ∧ next.stage = .ranging)) ∨
      (e.stage = .ranging ∧ e.feeder.ch.buffer = [] ∧ e.feeder.ch.closed = true ∧ next.feeder = e.feeder ∧
        ∃ err, next.stage = .returned err) := by
  obtain ⟨⟨stage, ch⟩, listErr, main, out⟩ := e
  cases main with
  | header =>
    cases header with
    | error err =>
      cases step
      exact .inl ⟨rfl, rfl, .inl ⟨err, rfl, _, rfl⟩⟩
    | ok bytes =>
      cases step
      exact .inl ⟨rfl, rfl, .inr ⟨bytes, rfl, rfl⟩⟩
  | ranging =>
    unfold Export.write at step
    dsimp only at step
    split at step
    · cases step
    next pin rest received =>
      cases step
      obtain ⟨buffer, closed, sameCapacity⟩ := Chan.tryReceive_eq_item received
      refine .inr (.inl ⟨rfl, pin, ?_⟩)
      unfold Export.writePin
      cases serialized : serializePin codecs pin with
      | error err => exact ⟨buffer, rfl, closed, sameCapacity, .inl ⟨err, rfl, _, rfl⟩⟩
      | ok data => exact ⟨buffer, rfl, closed, sameCapacity, .inr ⟨data, rfl, rfl⟩⟩
    next rest received =>
      cases step
      obtain ⟨isEmpty, closed⟩ := Chan.tryReceive_eq_closed received
      exact .inr (.inr ⟨rfl, isEmpty, closed, rfl, _, rfl⟩)
  | returned err => cases step

theorem unsent_eq_nil {feeder : Feeder Pin} (fed : Fed feeder) (closed : feeder.ch.closed = true) :
    feeder.stage.unsent = [] := by
  obtain ⟨stage, ch⟩ := feeder
  cases stage with
  | sending rest =>
    have isOpen : ch.closed = false := fed
    rw [isOpen] at closed
    cases closed
  | ended => rfl
  | finished => rfl
  | done => rfl
  | panicked => rfl

variable (inv : ExportInv codecs header capacity left e)

include inv

theorem exportInv_write (step : e.write codecs header = some next) : ExportInv codecs header capacity left next := by
  have accounts := inv.accounts
  unfold Accounts at accounts
  rcases write_cases step with ⟨main, feeder, outcome⟩ |
    ⟨main, pin, buffer, stage, closed, sameCapacity, outcome⟩ | ⟨main, isEmpty, closed, feeder, err, returned⟩
  · have same : pending next = pending e := by rw [pending, pending, feeder]
    rw [main] at accounts
    refine ⟨feeder ▸ inv.fed, feeder ▸ inv.capacity, ?_⟩
    unfold Accounts
    rcases outcome with ⟨err, isHeader, text, returned⟩ | ⟨bytes, isHeader, ranging⟩
    · rw [returned, same, ← accounts, isHeader]
      exact .inl ⟨rfl, nofun⟩
    · rw [ranging, same, ← accounts, isHeader]
      rfl
  · have split : pending e = pin :: pending next := by rw [pending, pending, buffer, stage, cons_append]
    rw [main] at accounts
    refine ⟨by rw [Fed, stage, closed]; exact inv.fed, sameCapacity.trans inv.capacity, ?_⟩
    unfold Accounts
    rcases outcome with ⟨err, failed, text, returned⟩ | ⟨data, serialized, ranging⟩
    · rw [returned, ← accounts, split, leftUnread, failed]
      exact .inl ⟨rfl, nofun⟩
    · rw [ranging, ← accounts, split, leftUnread, serialized]
  · have none : pending e = [] := by rw [pending, isEmpty, unsent_eq_nil inv.fed closed, append_nil]
    have same : pending next = pending e := by rw [pending, pending, feeder]
    rw [main] at accounts
    refine ⟨feeder ▸ inv.fed, feeder ▸ inv.capacity, ?_⟩
    unfold Accounts
    rw [returned, same, none, ← accounts, none, feeder]
    exact .inr ⟨rfl, rfl, closed⟩

theorem exportInv_step {event : ExportEvent} (step : (exportMachine codecs source header).step e event = some next) :
    ExportInv codecs header capacity left next := by
  cases event with
  | list =>
    obtain ⟨-, listed⟩ := ite_none_left_eq_some.mp step
    exact exportInv_list inv listed
  | write =>
    obtain ⟨-, written⟩ := ite_none_left_eq_some.mp step
    exact exportInv_write inv written

end

section

variable {codecs : PinCodecs} {source : ExportSource} {header : Except Error Bytes} {capacity : ℕ}

def feederRank {α : Type} : FeederStage α → ℕ
  | .sending _ => 3
  | .ended => 2
  | .finished => 1
  | .done | .panicked => 0

def writerRank : ExportStage → ℕ
  | .header => 2
  | .ranging => 1
  | .returned _ => 0

/-- A pin that is not sent has to be sent and received. -/
def exportRank (e : Export) : ℕ :=
  2 * e.feeder.stage.unsent.length + e.feeder.ch.buffer.length + feederRank e.feeder.stage + writerRank e.stage

theorem exportRank_list (step : e.list source = some next) : exportRank next < exportRank e := by
  rcases list_cases step with ⟨item, rest, sending, nextStage, buffer, -, -, main⟩ |
    ⟨sending, rfl⟩ | ⟨ended, rfl⟩ | ⟨finished, rfl⟩
  · simp only [exportRank, sending, nextStage, buffer, main, unsent, feederRank, length_append, length_cons, length_nil]
    omega
  · simp only [exportRank, sending, unsent, feederRank, Chan.close]
    omega
  · simp only [exportRank, ended, unsent, feederRank]
    omega
  · cases closed : e.feeder.ch.closed with
    | true =>
      rw [Feeder.close_of_closed closed]
      simp only [exportRank, finished, unsent, feederRank]
      omega
    | false =>
      rw [Feeder.close_of_open closed]
      simp only [exportRank, finished, unsent, feederRank, Chan.close]
      omega

theorem exportRank_write (step : e.write codecs header = some next) : exportRank next < exportRank e := by
  rcases write_cases step with ⟨main, feeder, outcome⟩ | ⟨main, pin, buffer, stage, -, -, outcome⟩ |
    ⟨main, -, -, feeder, err, returned⟩
  · rcases outcome with ⟨-, -, text, returned⟩ | ⟨-, -, ranging⟩
    · simp only [exportRank, feeder, main, returned, writerRank]
      omega
    · simp only [exportRank, feeder, main, ranging, writerRank]
      omega
  · rcases outcome with ⟨-, -, text, returned⟩ | ⟨-, -, ranging⟩
    · simp only [exportRank, stage, buffer, main, returned, writerRank, length_cons]
      omega
    · simp only [exportRank, stage, buffer, main, ranging, writerRank, length_cons]
      omega
  · simp only [exportRank, feeder, main, returned, writerRank]
    omega

theorem length_le_of_export {target : Export} {events : List ExportEvent}
    (ran : (exportMachine codecs source header).run e events = some target) : events.length ≤ exportRank e := by
  have bound := LabeledMachine.length_le_of_run (fun _ => True) exportRank (fun s event next _ step => ?_) trivial ran
  · omega
  · cases event with
    | list => exact ⟨trivial, exportRank_list (ite_none_left_eq_some.mp step).2⟩
    | write => exact ⟨trivial, exportRank_write (ite_none_left_eq_some.mp step).2⟩

/-- Without a panic, an export that cannot go on has given up and left more pins than the channel holds. -/
theorem stuck_of_halted (inv : ExportInv codecs header capacity left e) (positive : 0 < capacity)
    (alive : e.feeder.stage ≠ .panicked) (halted : ∀ event, (exportMachine codecs source header).step e event = none) :
    (∃ err, e.stage = .returned (some err)) ∧ ∃ count, left = some count ∧ capacity < count := by
  have noList : e.list source = none := (if_neg alive).symm.trans (halted .list)
  have noWrite : e.write codecs header = none := (if_neg alive).symm.trans (halted .write)
  obtain ⟨fed, sameCapacity, accounts⟩ := inv
  obtain ⟨⟨stage, ch⟩, listErr, main, out⟩ := e
  cases stage with
  | sending rest =>
    have isOpen : ch.closed = false := fed
    have noRoom : ¬ ch.buffer.length < ch.capacity := by
      intro room
      have enabled : (Feeder.list true ⟨.sending rest, ch⟩).isSome = true := Feeder.list_isSome_of_room isOpen room
      rw [isSome_iff_ne_none] at enabled
      exact enabled (map_eq_none_iff.mp noList)
    have capacityIs : ch.capacity = capacity := sameCapacity
    cases rest with
    | nil => cases noList
    | cons item rest =>
      cases main with
      | header => cases noWrite
      | ranging =>
        cases received : ch.tryReceive with
        | none =>
          have isEmpty := (Chan.tryReceive_eq_none received).1
          rw [isEmpty] at noRoom
          exact absurd (capacityIs ▸ positive) noRoom
        | some answer =>
          obtain ⟨answer, rest⟩ := answer
          unfold Export.write at noWrite
          dsimp only at noWrite
          rw [received] at noWrite
          cases answer <;> cases noWrite
      | returned err =>
        rcases accounts with ⟨counted, failed⟩ | ⟨-, none, -⟩
        · refine ⟨?_, _, counted, ?_⟩
          · obtain ⟨text, rfl⟩ := ne_none_iff_exists'.mp failed
            exact ⟨text, rfl⟩
          · simp only [pending, unsent, length_append, length_cons]
            omega
        · cases append_eq_nil_iff.mp none |>.2
  | ended | finished => cases noList
  | done => exact fed.elim
  | panicked => exact absurd rfl alive

theorem not_closed_of_stuck {count : ℕ} (inv : ExportInv codecs header capacity (some count) e)
    (large : capacity < count) : e.feeder.ch.closed = false := by
  obtain ⟨fed, sameCapacity, accounts⟩ := inv
  rw [← Bool.not_eq_true]
  intro closed
  have fits : (pending e).length ≤ capacity := by
    rw [pending, unsent_eq_nil fed closed, append_nil, ← sameCapacity]
    exact e.feeder.ch.bounded
  unfold Accounts at accounts
  cases main : e.stage with
  | header =>
    rw [main] at accounts
    have bound := le_length_of_unread accounts
    omega
  | ranging =>
    rw [main] at accounts
    have bound := lt_length_of_leftUnread accounts
    omega
  | returned err =>
    rw [main] at accounts
    rcases accounts with ⟨counted, -⟩ | ⟨absurd, -⟩
    · have same := some.inj counted
      omega
    · cases absurd

end

end IpfsCluster.Proofs.State
