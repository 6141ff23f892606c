import IpfsCluster.Model.Api.Types

/-! # The load-balancing client of the REST API

A strategy gives the client for each try of a request; an index or a division in it may panic, which ends the request.
The outcome of each try is an input. Only the comparison of its counter bounds the recursion of `retry`, so that the
model runs for a number of tries.
-/

namespace IpfsCluster.Model.RestClient

inductive CallError where
  | api (code : Int64) (message : String)
  | foreign (message : String)
deriving DecidableEq, Repr

structure LBStrategy (σ Client : Type) where
  next : σ → Int64 → Except String (Client × σ)
  setClients : σ → List Client → σ

variable {σ Client : Type}

def divideByZero : String := "runtime error: integer divide by zero"

def outOfRange : String := "runtime error: index out of range"

/-- Clients are used in a sequence for all methods, throughout the lifetime of the client. -/
structure RoundRobin (Client : Type) where
  clients : List Client := []
  counter : UInt32 := 0
  length : UInt32 := 0

namespace RoundRobin

variable (r : RoundRobin Client)

def next (_count : Int64) : Except String (Client × RoundRobin Client) :=
  let counter := r.counter + 1
  if r.length = 0 then .error divideByZero
  else
    match r.clients[(counter % r.length).toNat]? with
    | none => .error outOfRange
    | some client => .ok (client, { r with counter })

def setClients (cl : List Client) : RoundRobin Client :=
  { r with clients := cl, length := UInt32.ofNat cl.length }

def strategy : LBStrategy (RoundRobin Client) Client := ⟨next, setClients⟩

end RoundRobin

/-- The first client is tried first, and the other ones in turn when a call fails. -/
structure Failover (Client : Type) where
  clients : List Client := []

namespace Failover

variable (f : Failover Client)

def next (count : Int64) : Except String (Client × Failover Client) :=
  if f.clients.length = 0 then .error divideByZero
  else
    let i := count.toInt.tmod f.clients.length
    if i < 0 then .error outOfRange
    else
      match f.clients[i.toNat]? with
      | none => .error outOfRange
      | some client => .ok (client, f)

def setClients (_f : Failover Client) (cl : List Client) : Failover Client := ⟨cl⟩

def strategy : LBStrategy (Failover Client) Client := ⟨next, setClients⟩

end Failover

structure LoadBalancingClient (σ Client : Type) where
  strategy : LBStrategy σ Client
  state : σ
  retries : Int64

def newLBClient {Config : Type} (newDefaultClient : Config → Except String Client) (strategy : LBStrategy σ Client)
    (state : σ) (cfgs : List Config) (retries : Int64) : Except String (LoadBalancingClient σ Client) :=
  match cfgs.mapM newDefaultClient with
  | .error err => .error err
  | .ok clients => .ok ⟨strategy, strategy.setClients state clients, retries⟩

/-- How a request ended, by a panic or by returning an error or none, with the clients called for it. -/
structure Answer (Client : Type) where
  result : Except String (Option CallError)
  calls : List Client

/-- Try the request until it is successful or was tried `retries` times; none if it is not over by then. -/
def LoadBalancingClient.retry (outcomes : ℕ → Option CallError) :
    ℕ → LoadBalancingClient σ Client → List Client → Int64 → Option (Answer Client)
  | 0, _, _, _ => none
  | tries + 1, lc, calls, count =>
    match lc.strategy.next lc.state count with
    | .error text => some ⟨.error text, calls⟩
    | .ok (client, state) =>
      let err := outcomes calls.length
      let calls := calls ++ [client]
      let count := count + 1
      match err with
      | none => some ⟨.ok none, calls⟩
      | some (.foreign message) => some ⟨.ok (some (.foreign message)), calls⟩
      | some (.api code message) =>
        if code ≠ 0 then some ⟨.ok (some (.api code message)), calls⟩
        else if count = lc.retries then some ⟨.ok (some (.api code message)), calls⟩
        else retry outcomes tries { lc with state } calls count

def LoadBalancingClient.request (lc : LoadBalancingClient σ Client) (outcomes : ℕ → Option CallError) (tries : ℕ) :
    Option (Answer Client) :=
  lc.retry outcomes tries [] 0

/-- What a client does when it is asked for a stream: the items that it sends before it closes its channel, and the
error that it returns. -/
structure StreamCall (Item : Type) where
  items : List Item := []
  err : Option CallError := none

/-- A streaming request: each call has a channel of its own, whose items a goroutine forwards to the channel of the
caller, and waits for the goroutine (the context is not done). The caller gets the items of all calls, in their order. -/
def LoadBalancingClient.stream {Item : Type} (lc : LoadBalancingClient σ Client) (call : ℕ → StreamCall Item)
    (tries : ℕ) : Option (Answer Client × List Item) :=
  (lc.request (fun n => (call n).err) tries).map fun answer =>
    (answer, (List.range answer.calls.length).flatMap fun n => (call n).items)

end IpfsCluster.Model.RestClient
