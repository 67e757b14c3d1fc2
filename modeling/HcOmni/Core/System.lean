import HcOmni.Core.Transaction

/-!
# Runs of the engine

Everything that changes the engine's state from outside: transactions, payments for accepted
offers, the work done at a block, and the pending amounts of the wallet.  A run is a list of such
events; it stops at the first failed assertion, since the process is gone then.
-/

namespace HcOmni

/-! ### The vesting of the developer tokens -/

/-- The end of the fundraiser. -/
def EXODUS_BOOTSTRAP_DEADLINE : Nat := 1377993874

/-- The number of developer tokens that vest over time. -/
def ALL_REWARD : Int := 5631623576222

/-- `calculate_and_update_devmsc` -/
def calculateAndUpdateDevmsc (env : Env) (nTime : Nat) (block : Int) : Op Int := do
  rejectIf (decide (nTime < EXODUS_BOOTSTRAP_DEADLINE)) 0
  let s ← get
  let devmsc := env.devmscAvailable nTime
  let exodusDelta := devmsc - s.aux.exodusPrev
  -- skip if the timestamp of the block is older than that of a previous one
  rejectIf (decide (exodusDelta < 0)) 0
  -- sanity check that devmsc is not an impossible value
  rejectIf (decide (devmsc > ALL_REWARD) || decide (devmsc < 0)) 0
  if exodusDelta > 0 then
    let _ ← updateTallyMap env.exodusAddress OMNI_PROPERTY_MSC exodusDelta .BALANCE
    modify fun s => { s with aux.exodusPrev := devmsc }
  else
    pure ()
  notifyTotalTokensChanged env OMNI_PROPERTY_MSC block
  pure exodusDelta

/-! ### Events -/

inductive Event where
  /-- a transaction, executed by `interpretPacket` -/
  | packet (tx : CMPTransaction)
  /-- a payment to a seller, handled by `DEx_payment` -/
  | payment (txid : Hash) (vout : Nat) (seller buyer : Address) (amountPaid block : Int)
  /-- `eraseExpiredAccepts` -/
  | expireAccepts (blockNow : Int)
  /-- `eraseExpiredCrowdsale` -/
  | expireCrowdsales (blockTime : Int) (blockHash : Hash)
  /-- `calculate_and_update_devmsc` -/
  | vestDevmsc (nTime : Nat) (block : Int)
  /-- an update of the pending amount -/
  | pending (who : Address) (propertyId : PropertyId) (amount : Int)
  deriving DecidableEq, Repr

namespace Event

def exec (env : Env) : Event → Op Unit
  | .packet tx => do
      let _ ← interpretPacket env tx
      pure ()
  | .payment txid vout seller buyer amountPaid block => do
      let _ ← dexPayment env txid vout seller buyer amountPaid block
      pure ()
  | .expireAccepts blockNow => eraseExpiredAccepts blockNow
  | .expireCrowdsales blockTime blockHash => eraseExpiredCrowdsale blockTime blockHash
  | .vestDevmsc nTime block => do
      let _ ← calculateAndUpdateDevmsc env nTime block
      pure ()
  | .pending who propertyId amount => do
      let _ ← updateTallyMap who propertyId amount .PENDING
      pure ()

/-- The transaction an event carries. -/
def txid? : Event → Option Hash
  | .packet tx => some tx.txid
  | _ => none

/-- The place of a transaction in the chain. -/
def place? : Event → Option (Int × Nat)
  | .packet tx => some (tx.block, tx.txIdx)
  | _ => none

/-- The height at which an event may touch the fee cache. -/
def height? : Event → Option Int
  | .packet tx => some tx.block
  | .vestDevmsc _ block => some block
  | _ => none

end Event

/-- The state after an event, if the process survives it. -/
def step (env : Env) (s : State) (event : Event) : Option State :=
  match event.exec env s with
  | .ok _ s' => some s'
  | .error halt s' => if halt.Live then some s' else none

/-- The state after a list of events, if the process survives all of them. -/
def run (env : Env) (s : State) (events : List Event) : Option State :=
  events.foldlM (step env) s

theorem run_concat (env : Env) (s : State) (events : List Event) (event : Event) :
    run env s (events ++ [event]) = (run env s events).bind fun t => step env t event := by
  simp only [run, List.foldlM_append, List.foldlM_cons, List.foldlM_nil, Option.bind_eq_bind,
    Option.pure_def, Option.bind_fun_some]

end HcOmni
