import HcOmni.Node.Frames

/-!
# The thread that writes the state files

`OmniThread.cpp`, `DataHandler.h`, `WnQueue.h` and the part of `persistence.cpp` that runs on the
writing thread.  The calls of the node hand over the hash and the height of a block; the files are
written later, from the state that is in memory by then.

The two threads take turns in any way.  A turn of the writing thread takes a notification from the
queue, decides whether to skip it, writes one file, lists the directory, or decides about one block
that has files.
-/

namespace HcOmni

open Std Program Text

variable {n n' : Node} {nenv : NodeEnv} {fenv : FileEnv}

def STORE_EVERY_N_BLOCK : Int := 10000

/-- The files of a block, in the order in which `write_files` writes them. -/
def fileTypes : List FileType :=
  [.BALANCES, .OFFERS, .ACCEPTS, .GLOBALS, .CROWDSALES, .MDEXORDERS]

theorem mem_fileTypes (what : FileType) : what ∈ fileTypes := by
  cases what <;> decide

/-! ### The directory -/

namespace Node

/-- The contents of a file, if it exists. -/
def stateFile (n : Node) (hash : Hash) : StateFiles := n.files.getD hash fun _ => none

/-- `write_state_fileEx` -/
def writeStateFileEx (fenv : FileEnv) (n : Node) (hash : Hash) (what : FileType) : Node :=
  { n with
    files := n.files.insert hash
      (Function.update (n.stateFile hash) what (some (writeStateFile fenv n.core what))) }

/-- The blocks that have any files, as found in the directory. -/
def statefulBlockHashes (n : Node) : List Hash :=
  (n.files.toList.filter fun entry => fileTypes.any fun what => (entry.2 what).isSome).map Prod.fst

/-- The height of a block in the history; it stays at -1 if there is no record. -/
def heightInHistory (n : Node) (hash : Hash) : Int :=
  match n.blockHistory.getBlockHistoryByHash hash with
  | some record => record.height
  | none => -1

/-- A round of the last loop of `prune_state_filesEx`. -/
def pruneHash (n : Node) (topHeight : Int) (hash : Hash) : Node :=
  match n.blockHistory.getBlockHistoryByHash hash with
  | none => n
  | some record =>
      if topHeight - record.height > MAX_STATE_HISTORY ∧ record.height % STORE_EVERY_N_BLOCK ≠ 0 then
        { n with files := n.files.erase hash }
      else n

theorem stateFile_writeStateFileEx (n : Node) (hash hash' : Hash) (what what' : FileType) :
    (n.writeStateFileEx fenv hash what).stateFile hash' what' =
      if hash' = hash ∧ what' = what then some (writeStateFile fenv n.core what)
      else n.stateFile hash' what' := by
  unfold writeStateFileEx stateFile
  simp only [ExtTreeMap.getD_insert, LawfulEqCmp.compare_eq_iff_eq]
  by_cases hhash : hash = hash'
  · subst hhash
    by_cases hwhat : what' = what
    · subst hwhat
      simp
    · simp [hwhat]
  · simp [hhash, Ne.symm hhash]

theorem stateFile_erase (n : Node) (hash hash' : Hash) :
    ({ n with files := n.files.erase hash } : Node).stateFile hash' =
      if hash' = hash then fun _ => none else n.stateFile hash' := by
  unfold stateFile
  simp only [ExtTreeMap.getD_erase, LawfulEqCmp.compare_eq_iff_eq]
  by_cases h : hash = hash'
  · rw [if_pos h, if_pos h.symm]
  · rw [if_neg h, if_neg (Ne.symm h)]

end Node

/-! ### The two threads -/

/-- How far the writing thread is. -/
inductive Worker where
  /-- before the test whether the queue is empty -/
  | waiting
  /-- a notification was taken from the queue -/
  | taken (notify : CDataNotify)
  /-- the files still to be written -/
  | writing (notify : CDataNotify) (left : List FileType)
  /-- the blocks still to be looked at -/
  | pruning (topHeight : Int) (left : List Hash)
  deriving DecidableEq, Repr

/-- The node with its writing thread.  It is also noted what was in memory whenever a notification
was put into the queue, and whose files were completed; neither thread reads these notes. -/
structure System where
  node : Node
  worker : Worker := .waiting
  snapshots : List (CDataNotify × State) := []
  completed : List Hash := []

/-- A part of a call that neither puts anything into the queue, nor touches the directory and the
history of blocks. -/
structure RpcPart where
  run : NodeOp Unit
  quiet : ∀ n n', run n = .ok () n' → n'.notifications = n.notifications ∧ n'.files = n.files ∧
    n'.blockHistory = n.blockHistory

/-- A turn of one of the threads. -/
inductive Action where
  /-- another part of a call -/
  | rpc (part : RpcPart)
  /-- `onblockconnected_p`, up to `PersistInMemoryStateEx` -/
  | connect (message : BlockMessage)
  /-- `Put`, called by `PersistInMemoryStateEx` -/
  | put (message : BlockMessage)
  /-- the writing thread -/
  | work

/-- The notification about a block. -/
def BlockMessage.notify (message : BlockMessage) : CDataNotify :=
  ⟨uint256S message.hash, message.height⟩

namespace System

/-- A turn of the writing thread: `DataThread`, `DataFunc` and `write_files`. -/
def work (fenv : FileEnv) (sys : System) : System :=
  match sys.worker with
  | .waiting =>
      match sys.node.notifications with
      | [] => sys
      | notify :: rest => { sys with node.notifications := rest, worker := .taken notify }
  | .taken notify =>
      if sys.node.notifications.length > 50 ∧ notify.height % STORE_EVERY_N_BLOCK ≠ 0 then
        { sys with worker := .waiting }
      else { sys with worker := .writing notify fileTypes }
  | .writing notify (what :: left) =>
      { sys with
        node := sys.node.writeStateFileEx fenv notify.data what
        worker := .writing notify left
        completed := if left = [] then notify.data :: sys.completed else sys.completed }
  | .writing notify [] =>
      { sys with
        worker := .pruning (sys.node.heightInHistory notify.data) sys.node.statefulBlockHashes }
  | .pruning topHeight (hash :: left) =>
      { sys with node := sys.node.pruneHash topHeight hash, worker := .pruning topHeight left }
  | .pruning _ [] => { sys with worker := .waiting }

/-- The system after a part of a call, if this part returns. -/
def call (sys : System) (m : NodeOp Unit) : Option System :=
  match m sys.node with
  | .ok _ n => some { sys with node := n }
  | .error _ _ => none

def act (nenv : NodeEnv) (sys : System) : Action → Option System
  | .rpc part => sys.call part.run
  | .connect message => sys.call (connectBlock nenv message)
  | .put message => some
      { sys with
        node.notifications := sys.node.notifications ++ [message.notify]
        snapshots := sys.snapshots ++ [(message.notify, sys.node.core)] }
  | .work => some (sys.work nenv.fenv)

def actAll (nenv : NodeEnv) (sys : System) (actions : List Action) : Option System :=
  actions.foldlM (act nenv) sys

/-- Nothing is in the queue, and the writing thread waits. -/
def Idle (sys : System) : Prop := sys.node.notifications = [] ∧ sys.worker = .waiting

theorem core_work (fenv : FileEnv) (sys : System) : (sys.work fenv).node.core = sys.node.core := by
  unfold work
  split
  · split <;> rfl
  · split <;> rfl
  · rfl
  · rfl
  · unfold Node.pruneHash
    simp only
    split
    · rfl
    · split <;> rfl
  · rfl

theorem call_eq_some {sys sys' : System} {m : NodeOp Unit} (h : sys.call m = some sys') :
    ∃ n', m sys.node = .ok () n' ∧ sys' = { sys with node := n' } := by
  unfold call at h
  cases hm : m sys.node with
  | ok _ n' =>
    rw [hm] at h
    cases h
    exact ⟨n', rfl, rfl⟩
  | error halt n' =>
    rw [hm] at h
    cases h

end System

/-! ### The calls as parts -/

/-- `_my_sps->setWatermark` at the end of `PersistInMemoryStateEx`. -/
def RpcPart.setWatermark (hash : Hash) : RpcPart where
  run := modify fun n => { n with core.mySps := n.core.mySps.setWatermark hash }
  quiet n n' h := by
    cases h
    exact ⟨rfl, rfl, rfl⟩

/-- A call of which exceptions are answered to the caller. -/
def answered (m : NodeOp Unit) : NodeOp Unit := fun n =>
  match m n with
  | .ok _ n' => .ok () n'
  | .error halt n' => if halt.Live then .ok () n' else .error halt n'

theorem quiet_answered {m : NodeOp Unit} (part : Node → Node → Node)
    (hframe : wp m (fun _ n' => part n n' = n') (fun _ n' => part n n' = n') n)
    (hpart : ∀ n', (part n n').notifications = n.notifications ∧ (part n n').files = n.files ∧
      (part n n').blockHistory = n.blockHistory)
    (h : answered m n = .ok () n') : n'.notifications = n.notifications ∧ n'.files = n.files ∧
      n'.blockHistory = n.blockHistory := by
  have hsurvive : survive m n = some n' := by
    unfold answered at h
    unfold survive
    cases hm : m n with
    | ok _ u =>
      rw [hm] at h
      cases h
      rfl
    | error halt u =>
      simp only [hm] at h ⊢
      split at h
      · next hlive =>
          cases h
          rw [if_pos hlive]
      · cases h
  have hself : part n n' = n' := of_survive (P := fun n' => part n n' = n') hsurvive hframe
  rw [← hself]
  exact hpart n'

/-- The interpretation of a transaction. -/
def RpcPart.tx (nenv : NodeEnv) (message : TxMessage) : RpcPart where
  run := answered do let _ ← processTransaction nenv message
  quiet n n' h := by
    refine quiet_answered Node.txPart ?_ (fun _ => ⟨rfl, rfl, rfl⟩) h
    rw [wp_bind]
    exact frame_processTransaction message

/-- The application of a payment. -/
def RpcPart.payment (nenv : NodeEnv) (message : PaymentMessage) : RpcPart where
  run := answered (omniProcesspayment nenv message)
  quiet _ _ h :=
    quiet_answered Node.paymentPart (frame_omniProcesspayment message)
      (fun _ => ⟨rfl, rfl, rfl⟩) h

theorem quiet_connectBlock (message : BlockMessage) :
    wp (connectBlock nenv message)
      (fun _ n' => n'.notifications = n.notifications ∧ n'.files = n.files ∧ n'.blockHistory =
        n.blockHistory.putBlockHistory message.height (uint256S message.hash) message.time)
      (fun _ _ => True) n := by
  unfold connectBlock
  simp only [wp_bind, wp_modify, wp_engine]
  refine wp_of_forall (fun _ _ => ?_) fun _ _ => trivial
  exact wp_of_forall (fun _ _ => ⟨trivial, trivial, trivial⟩) fun _ _ => trivial

/-- **The parts make up the call**: connecting a block from the genesis block on. -/
theorem onblockconnectedP_parts {sys : System} {message : BlockMessage} {u : Node}
    (hconnect : connectBlock nenv message sys.node = .ok () u)
    (hgenesis : message.height ≥ u.core.aux.params.genesisBlock) :
    ∃ sys', sys.actAll nenv
        [.connect message, .put message, .rpc (.setWatermark message.notify.data)] = some sys' ∧
      onblockconnectedP nenv message sys.node = .ok () sys'.node ∧
      sys'.snapshots = sys.snapshots ++ [(message.notify, u.core)] := by
  refine ⟨⟨{ u with
      notifications := u.notifications ++ [message.notify]
      core.mySps := u.core.mySps.setWatermark message.notify.data }, sys.worker,
    sys.snapshots ++ [(message.notify, u.core)], sys.completed⟩, ?_, ?_, rfl⟩
  · have hcall : sys.call (connectBlock nenv message) = some { sys with node := u } := by
      unfold System.call
      rw [hconnect]
    unfold System.actAll
    rw [List.foldlM_cons, show sys.act nenv (.connect message) = _ from hcall]
    rfl
  · unfold onblockconnectedP
    rw [bind_of_ok hconnect, bind_of_ok (rfl : (get : NodeOp Node) u = .ok u u), if_pos hgenesis]
    rfl

end HcOmni
