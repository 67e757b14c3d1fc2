import HcOmni.Node.Delivery

/-!
# Parked messages and the height of the node

Connecting a block replays the blocks parked right behind it.  After a replay both stores of parked
messages are emptied, whatever they hold beyond the blocks replayed.  A message for a block at or
below the height of the node is connected like any other and takes the node back.
-/

namespace HcOmni

open Std Program Text

variable {n n' u u' : Node} {nenv : NodeEnv}

/-! ### Whether anything was replayed -/

/-- The test of `omni_onblockconnected` for a message that is too early. -/
def Node.Parks (n : Node) (message : BlockMessage) : Prop :=
  message.height - 1 ≠ n.latestBlock ∧ message.height > n.latestBlock ∧ n.latestBlock > 0

instance (n : Node) (message : BlockMessage) : Decidable (n.Parks message) :=
  inferInstanceAs (Decidable (_ ∧ _))

theorem replayed_replayParked (rounds : Nat) (index : Int) :
    wp (replayParked nenv rounds index true) (fun replayed _ => replayed = true) (fun _ _ => True)
      n := by
  induction rounds generalizing n index with
  | zero => rfl
  | succ rounds ih =>
    unfold replayParked
    simp only [wp_bind, wp_get]
    cases n.localBlockInfo.getBlockInfo index with
    | none => rfl
    | some blockInfo =>
      simp only [wp_bind]
      exact wp_of_forall (fun _ _ => ih _) fun _ _ => trivial

theorem replayParked_cases (rounds : Nat) (index : Int) :
    wp (replayParked nenv (rounds + 1) index false)
      (fun replayed n' => if n.localBlockInfo.getBlockInfo index = none then
        replayed = false ∧ n' = n else replayed = true) (fun _ _ => True) n := by
  unfold replayParked
  simp only [wp_bind, wp_get]
  cases hget : n.localBlockInfo.getBlockInfo index with
  | none => exact ⟨rfl, rfl⟩
  | some blockInfo =>
    simp only [wp_bind]
    refine wp_of_forall (fun _ _ => ?_) fun _ _ => trivial
    refine wp_mono (replayed_replayParked _ _) (fun replayed u h => ?_) fun _ _ _ => trivial
    simpa using h

theorem omniOnblockconnected_of_parks {message : BlockMessage} (hparks : n.Parks message) :
    omniOnblockconnected nenv message n =
      .ok () { n with localBlockInfo := n.localBlockInfo.putInfo message } := by
  unfold omniOnblockconnected
  rw [bind_of_ok (rfl : (get : NodeOp Node) n = .ok n n), if_pos (by exact hparks)]
  rfl

theorem parked_omniOnblockconnected {message : BlockMessage} (hdirect : ¬n.Parks message)
    (hcall : omniOnblockconnected nenv message n = .ok () n') :
    if n.localBlockInfo.getBlockInfo (message.height + 1) = none then
      n'.localBlockInfo = n.localBlockInfo ∧ n'.localTxInfo = n.localTxInfo
    else n'.localBlockInfo = {} ∧ n'.localTxInfo = {} := by
  suffices h : wp (omniOnblockconnected nenv message) (fun _ n' =>
      if n.localBlockInfo.getBlockInfo (message.height + 1) = none then
        n'.localBlockInfo = n.localBlockInfo ∧ n'.localTxInfo = n.localTxInfo
      else n'.localBlockInfo = {} ∧ n'.localTxInfo = {}) (fun _ _ => True) n from
    (wp_ok hcall).mp h
  unfold omniOnblockconnected
  simp only [wp_bind, wp_get, wp_ite, wp_modify, wp_pure]
  refine ⟨fun hparks => absurd hparks hdirect, fun _ => ?_⟩
  refine wp_mono (wp_and (frame_onblockconnectedP message)
    (latestBlock_onblockconnectedP message)) ?_ fun _ _ _ => trivial
  rintro _ u ⟨hframe, hlatest, -⟩
  have hblocks : u.localBlockInfo = n.localBlockInfo := by rw [← hframe]; rfl
  have htxs : u.localTxInfo = n.localTxInfo := by rw [← hframe]; rfl
  rw [hlatest]
  refine wp_mono (replayParked_cases _ _) ?_ fun _ _ _ => trivial
  intro replayed u' h
  rw [hblocks] at h
  by_cases hnone : n.localBlockInfo.getBlockInfo (message.height + 1) = none
  · rw [if_pos hnone] at h
    obtain ⟨rfl, rfl⟩ := h
    simp [hnone, hblocks, htxs]
  · rw [if_neg hnone] at h
    subst h
    simp [hnone]

/-- The message about a block, with its height as hash. -/
def sampleBlock (height : Nat) : BlockMessage := ⟨height, uint256ToString height, 1500000000⟩

/-- A block is connected, and one that does not follow it is parked. -/
def parkedOnce : List Message := [.block (sampleBlock 50000), .block (sampleBlock 50003)]

/-- A block is connected, and the one after the next and another one are parked. -/
def parkedTwice : List Message :=
  [.block (sampleBlock 50000), .block (sampleBlock 50002), .block (sampleBlock 50004)]

/-- The height and the waterline do not go down, as long as the waterline is at most one ahead. -/
def rising : Contract Halt Node where
  rel n n' := n.latestBlock ≤ n'.latestBlock ∧ (n.waterlineBlock ≤ n.latestBlock + 1 →
    n.waterlineBlock ≤ n'.waterlineBlock ∧ n'.waterlineBlock ≤ n'.latestBlock + 1)
  refl _ := ⟨le_rfl, fun h => ⟨le_rfl, h⟩⟩
  trans h h' := ⟨h.1.trans h'.1, fun hw => ⟨(h.2 hw).1.trans (h'.2 (h.2 hw).2).1,
    (h'.2 (h.2 hw).2).2⟩⟩
  live _ := True
  bad _ := False

theorem rising_of_eq (hlatest : n'.latestBlock = n.latestBlock)
    (hwaterline : n'.waterlineBlock = n.waterlineBlock) : rising.rel n n' := by
  refine ⟨hlatest.ge, fun h => ?_⟩
  rw [hlatest, hwaterline]
  exact ⟨le_rfl, h⟩

theorem conforms_rising_of_eq {α : Type} {m : NodeOp α}
    (h : wp m (fun _ n' => n'.latestBlock = n.latestBlock ∧ n'.waterlineBlock = n.waterlineBlock)
      (fun _ n' => n'.latestBlock = n.latestBlock ∧ n'.waterlineBlock = n.waterlineBlock) n) :
    Conforms rising m (fun _ n' => n'.latestBlock = n.latestBlock) n :=
  wp_mono h (fun _ _ ⟨hlatest, hwaterline⟩ => ⟨rising_of_eq hlatest hwaterline, hlatest⟩)
    fun _ _ ⟨hlatest, hwaterline⟩ => ⟨fun _ => rising_of_eq hlatest hwaterline, id⟩

theorem conforms_mastercoreHandlerMptx (message : TxMessage) :
    Conforms rising (mastercoreHandlerMptx nenv message)
      (fun _ n' => n'.latestBlock = n.latestBlock) n := by
  refine conforms_rising_of_eq ?_
  unfold mastercoreHandlerMptx
  simp only [wp_ite, wp_bind, wp_get, wp_modify, wp_pure]
  refine ⟨fun _ => ?_, fun _ => ⟨fun _ => ?_, fun _ => ?_⟩⟩
  · exact wp_mono (frame_handleUnconfirmed message)
      (fun _ _ h => by rw [← h]; exact ⟨rfl, rfl⟩) fun _ _ h => by rw [← h]; exact ⟨rfl, rfl⟩
  · trivial
  · exact wp_mono (frame_processTransaction message)
      (fun _ _ h => by rw [← h]; exact ⟨rfl, rfl⟩) fun _ _ h => by rw [← h]; exact ⟨rfl, rfl⟩

theorem conforms_onblockconnectedP {message : BlockMessage} (h : n.latestBlock < message.height) :
    Conforms rising (onblockconnectedP nenv message)
      (fun _ n' => n'.latestBlock = message.height ∧ n'.localBlockInfo = n.localBlockInfo) n := by
  have hrel : ∀ n' : Node, n'.latestBlock = message.height ∧ n'.waterlineBlock = message.height →
      rising.rel n n' := by
    rintro n' ⟨hlatest, hwaterline⟩
    refine ⟨by rw [hlatest]; exact h.le, fun hw => ?_⟩
    rw [hlatest, hwaterline]
    omega
  refine wp_mono (wp_and (latestBlock_onblockconnectedP message) (frame_onblockconnectedP message))
    ?_ fun _ n' hn' => ⟨fun _ => hrel n' hn'.1, id⟩
  rintro _ n' ⟨hheights, hframe⟩
  refine ⟨hrel n' hheights, hheights.1, ?_⟩
  rw [← hframe]
  rfl

theorem conforms_replayBlock {index : Int} {blockInfo : BlockMessage}
    (hheight : blockInfo.height = index) (hindex : n.latestBlock < index) :
    Conforms rising (replayBlock nenv index blockInfo)
      (fun _ n' => n'.latestBlock = index) n := by
  unfold replayBlock
  refine Conforms.get ?_
  refine Conforms.bind (Q := fun _ n' => n'.latestBlock = n.latestBlock) ?_ fun _ u _ hu => ?_
  · refine (Conforms.forM (I := fun _ (u : Node) => u.latestBlock = n.latestBlock) rfl ?_)
    intro message _ u hu
    refine Conforms.ite (fun _ => ?_) fun _ => Conforms.throw id
    refine Conforms.bind (conforms_mastercoreHandlerMptx message) fun _ u' _ hu' => ?_
    exact Conforms.pure (hu'.trans hu)
  · refine Conforms.bind (Q := fun _ n' => n'.latestBlock = n.latestBlock) ?_ fun _ u' _ hu' => ?_
    · exact Conforms.modify (rising_of_eq rfl rfl) hu
    · refine (conforms_onblockconnectedP (by rw [hu', hheight]; exact hindex)).mono ?_
      intro _ _ _ h
      exact h.1.trans hheight

theorem conforms_replayParked (rounds : Nat) {index : Int} {replayed : Bool}
    (hindex : n.latestBlock + 1 = index) :
    Conforms rising (replayParked nenv rounds index replayed) (fun _ _ => True) n := by
  induction rounds generalizing n index replayed with
  | zero => exact Conforms.pure trivial
  | succ rounds ih =>
    unfold replayParked
    refine Conforms.get ?_
    cases hget : n.localBlockInfo.getBlockInfo index with
    | none => exact Conforms.pure trivial
    | some blockInfo =>
      have hheight := n.localBlockInfo.keyed index blockInfo hget
      refine Conforms.bind (conforms_replayBlock hheight (by omega)) fun _ u _ hu => ?_
      exact ih (by rw [hu])

theorem conforms_omniOnblockconnected {message : BlockMessage}
    (h : n.latestBlock < message.height) :
    Conforms rising (omniOnblockconnected nenv message) (fun _ _ => True) n := by
  unfold omniOnblockconnected
  refine Conforms.get (Conforms.ite (fun _ => ?_) fun _ => ?_)
  · exact Conforms.modify (rising_of_eq rfl rfl) trivial
  · refine Conforms.bind (conforms_onblockconnectedP h) fun _ u _ _ => ?_
    refine Conforms.get ?_
    refine Conforms.bind (conforms_replayParked _ rfl) fun _ u' _ _ => ?_
    refine Conforms.ite (fun _ => ?_) fun _ => Conforms.pure trivial
    exact Conforms.modify (rising_of_eq rfl rfl) trivial

theorem rising_deliver {message : Message}
    (hahead : ∀ m, message = .block m → n.latestBlock < m.height)
    (hdeliver : deliver nenv n message = some n') : rising.rel n n' := by
  refine of_survive hdeliver ?_
  have hconforms : Conforms rising (message.handle nenv) (fun _ _ => True) n := by
    cases message with
    | tx m =>
      exact Conforms.bind (conforms_mastercoreHandlerMptx m) fun _ _ _ _ => Conforms.pure trivial
    | payment m =>
      refine (conforms_rising_of_eq ?_).mono fun _ _ _ _ => trivial
      exact wp_mono (frame_omniProcesspayment m)
        (fun _ _ h => by rw [← h]; exact ⟨rfl, rfl⟩) fun _ _ h => by rw [← h]; exact ⟨rfl, rfl⟩
    | block m => exact conforms_omniOnblockconnected (hahead m rfl)
  exact wp_mono hconforms (fun _ _ h => h.1) fun _ _ h => h.1 trivial

theorem rising_deliverAll {messages : List Message}
    (hahead : ∀ before m after u, messages = before ++ .block m :: after →
      deliverAll nenv n before = some u → u.latestBlock < m.height)
    (hrun : deliverAll nenv n messages = some n') : rising.rel n n' := by
  refine foldlM_invariant (I := fun _ => rising.rel n) (rising.refl n) ?_ hrun
  intro before message after u u' hsplit hbefore hrel hdeliver
  refine rising.trans hrel (rising_deliver (fun m heq => ?_) hdeliver)
  exact hahead before m after u (by rw [hsplit, heq]) hbefore

/-- **Heights only rise**, along every run without a message for a block that the node has reached
already. -/
theorem heights_rise {messages before after : List Message}
    (hstart : n.waterlineBlock ≤ n.latestBlock + 1)
    (hahead : ∀ before m after u, messages = before ++ .block m :: after →
      deliverAll nenv n before = some u → u.latestBlock < m.height)
    (hsplit : messages = before ++ after) (hbefore : deliverAll nenv n before = some u)
    (hafter : deliverAll nenv u after = some n') :
    u.latestBlock ≤ n'.latestBlock ∧ u.waterlineBlock ≤ n'.waterlineBlock := by
  have hfirst : rising.rel n u := rising_deliverAll (fun b m a v hb hv =>
    hahead b m (a ++ after) v (by rw [hsplit, hb]; simp) hv) hbefore
  have hsecond : rising.rel u n' := rising_deliverAll (fun b m a v hb hv =>
    hahead (before ++ b) m a v (by rw [hsplit, hb]; simp) (by
      rw [deliverAll, List.foldlM_append]
      exact Option.bind_eq_some_iff.mpr ⟨u, hbefore, hv⟩)) hafter
  exact ⟨hsecond.1, (hsecond.2 (hfirst.2 hstart).2).1⟩

/-- Two blocks in order. -/
theorem heights_rise_connected :
    ∃ u n', deliverAll sampleNodeEnv sampleNode [.block (sampleBlock 50000)] = some u ∧
      deliverAll sampleNodeEnv u [.block (sampleBlock 50001)] = some n' ∧
      u.latestBlock ≤ n'.latestBlock ∧ u.waterlineBlock ≤ n'.waterlineBlock := by
  obtain ⟨u, hu⟩ := Option.isSome_iff_exists.mp (by decide +kernel :
    (deliverAll sampleNodeEnv sampleNode [.block (sampleBlock 50000)]).isSome = true)
  have hnext : ((deliverAll sampleNodeEnv sampleNode [.block (sampleBlock 50000)]).bind fun u =>
      deliverAll sampleNodeEnv u [.block (sampleBlock 50001)]).isSome = true := by decide +kernel
  have hheight : (deliverAll sampleNodeEnv sampleNode [.block (sampleBlock 50000)]).map
      Node.latestBlock = some 50000 := by decide +kernel
  rw [hu, Option.map_some, Option.some.injEq] at hheight
  rw [hu, Option.bind_some] at hnext
  obtain ⟨n', hn'⟩ := Option.isSome_iff_exists.mp hnext
  refine ⟨u, n', hu, hn', heights_rise (by decide) ?_ rfl hu hn'⟩
  intro before m after v hsplit hv
  rcases before with _ | ⟨first, _ | ⟨second, rest⟩⟩
  · simp only [List.nil_append, List.singleton_append, List.cons.injEq, Message.block.injEq]
      at hsplit
    cases hv
    rw [← hsplit.1]
    decide
  · simp only [List.singleton_append, List.cons.injEq, Message.block.injEq] at hsplit
    rw [← hsplit.1, hu] at hv
    cases hv
    rw [hheight, ← hsplit.2.1]
    decide
  · simp at hsplit

/-- A block that is delivered again takes the node back to it, and its state is to be stored a second
time. -/
theorem exists_height_falls :
    ∃ u n', deliverAll sampleNodeEnv sampleNode
        [.block (sampleBlock 50000), .block (sampleBlock 50001)] = some u ∧
      deliver sampleNodeEnv u (.block (sampleBlock 50000)) = some n' ∧
      n'.latestBlock < u.latestBlock ∧ n'.waterlineBlock < u.waterlineBlock ∧
      n'.notifications = u.notifications ++ [⟨50000, 50000⟩] := by
  let look (n : Node) : Int × Int × List CDataNotify :=
    (n.latestBlock, n.waterlineBlock, n.notifications)
  obtain ⟨u, hu⟩ := Option.isSome_iff_exists.mp (by decide +kernel :
    (deliverAll sampleNodeEnv sampleNode
      [.block (sampleBlock 50000), .block (sampleBlock 50001)]).isSome = true)
  have hbefore : (deliverAll sampleNodeEnv sampleNode
      [.block (sampleBlock 50000), .block (sampleBlock 50001)]).map look =
        some (50001, 50001, [⟨50000, 50000⟩, ⟨50001, 50001⟩]) := by decide +kernel
  have hafter : ((deliverAll sampleNodeEnv sampleNode
      [.block (sampleBlock 50000), .block (sampleBlock 50001)]).bind fun u =>
        deliver sampleNodeEnv u (.block (sampleBlock 50000))).map look =
          some (50000, 50000, [⟨50000, 50000⟩, ⟨50001, 50001⟩, ⟨50000, 50000⟩]) := by
    decide +kernel
  rw [hu, Option.map_some, Option.some.injEq, Prod.mk.injEq, Prod.mk.injEq] at hbefore
  rw [hu, Option.bind_some, Option.map_eq_some_iff] at hafter
  obtain ⟨n', hn', hlook⟩ := hafter
  rw [Prod.mk.injEq, Prod.mk.injEq] at hlook
  refine ⟨u, n', hu, hn', ?_, ?_, ?_⟩
  · rw [hbefore.1, hlook.1]
    decide
  · rw [hbefore.2.1, hlook.2.1]
    decide
  · rw [hbefore.2.2, hlook.2.2]
    rfl

/-- A transaction of block 50002 that creates a property with 100 tokens. -/
def issuanceMessage : TxMessage where
  sender := "alice".toList
  reference := []
  txHash := uint256ToString 9
  blockHash := uint256ToString 50002
  block := 50002
  idx := 0
  scriptEncode := "00000032010001000000000000410000000000000000000064".toList
  fee := 0
  time := 1500000000

/-- A node at the height before these blocks. -/
def startNode : Node := { sampleNode with latestBlock := 50000 }

end HcOmni
