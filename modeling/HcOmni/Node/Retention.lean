import HcOmni.Node.Snapshots

/-!
# Which state files are kept

A notification is skipped if more than 50 others wait behind it, and writing the files of a block
removes those of blocks more than 50 below it.  Both need a block to be more than 50 below another
one that was connected, so the files of the last 51 blocks are there when the writing thread has
caught up, however the threads took turns.
-/

namespace HcOmni

open Std Program Text

variable {n n' : Node} {nenv : NodeEnv} {sys sys' : System} {actions : List Action}

/-! ### Blocks connected in turn -/

/-- The actions that belong to the connection of a block. -/
def Action.isBlock : Action → Bool
  | .connect _ => true
  | .put _ => true
  | _ => false

def Action.put? : Action → Option BlockMessage
  | .put message => some message
  | _ => none

/-- The node connects `blocks` one after another; between these actions there may be others. -/
def ConnectsAll (actions : List Action) (blocks : List BlockMessage) : Prop :=
  actions.filter Action.isBlock = blocks.flatMap fun message => [.connect message, .put message]

/-- Blocks of consecutive heights from `base` on, with distinct hashes. -/
structure Consecutive (base : Int) (blocks : List BlockMessage) : Prop where
  height : ∀ (i : Nat) (message : BlockMessage), blocks[i]? = some message →
    message.height = base + i
  nodup : (blocks.map fun message => message.notify.data).Nodup

namespace ConnectsAll

variable {blocks : List BlockMessage}

theorem filterMap_put (h : ConnectsAll actions blocks) : actions.filterMap Action.put? = blocks := by
  have hfilter : actions.filterMap Action.put? =
      (actions.filter Action.isBlock).filterMap Action.put? := by
    rw [List.filterMap_filter]
    refine List.filterMap_congr fun action _ => ?_
    cases action <;> rfl
  rw [hfilter, h, List.filterMap_flatMap]
  change blocks.flatMap (fun message => [message]) = blocks
  simp

theorem mem_of_connect (h : ConnectsAll actions blocks) {message : BlockMessage}
    (hmem : .connect message ∈ actions) : message ∈ blocks := by
  have hfilter : Action.connect message ∈ actions.filter Action.isBlock :=
    List.mem_filter.mpr ⟨hmem, rfl⟩
  rw [h] at hfilter
  simpa using hfilter

theorem connect_mem_of_put (h : ConnectsAll actions blocks) {before after : List Action}
    {message : BlockMessage} (hsplit : actions = before ++ .put message :: after) :
    .connect message ∈ before := by
  have hfilter : before.filter Action.isBlock ++ .put message :: after.filter Action.isBlock =
      blocks.flatMap fun message => [.connect message, .put message] := by
    rw [← h, hsplit, List.filter_append]
    rfl
  suffices hmem : Action.connect message ∈ before.filter Action.isBlock from
    (List.mem_filter.mp hmem).1
  clear h hsplit
  generalize before.filter Action.isBlock = pre at hfilter ⊢
  generalize after.filter Action.isBlock = post at hfilter
  induction blocks generalizing pre with
  | nil => simp at hfilter
  | cons block blocks ih =>
    rw [List.flatMap_cons] at hfilter
    match pre, hfilter with
    | [], hfilter => simp at hfilter
    | [first], hfilter =>
      simp only [List.cons_append, List.nil_append, List.cons.injEq, Action.put.injEq]
        at hfilter
      rw [hfilter.1, hfilter.2.1]
      exact List.mem_singleton.mpr rfl
    | first :: second :: pre, hfilter =>
      simp only [List.cons_append, List.nil_append, List.cons.injEq] at hfilter
      exact List.mem_cons_of_mem _ (List.mem_cons_of_mem _ (ih pre hfilter.2.2))

end ConnectsAll

/-! ### What the writing thread keeps -/

/-- The notification that the writing thread has taken and not yet written all files for. -/
def Worker.notify? : Worker → Option CDataNotify
  | .taken notify => some notify
  | .writing notify _ => some notify
  | _ => none

/-- The history has the block under its hash. -/
def Node.Recorded (n : Node) (notify : CDataNotify) : Prop :=
  ∃ record, n.blockHistory.getBlockHistoryByHash notify.data = some record ∧
    record.height = notify.height

/-- Of the blocks put into the queue, `done` are dealt with; those of them that are not more than 50
below the last one have all their files. -/
structure FilesHeld (base : Int) (puts done : List CDataNotify) (sys : System) : Prop where
  queue : puts = done ++ sys.worker.notify?.toList ++ sys.node.notifications
  height : ∀ (i : Nat) (notify : CDataNotify), puts[i]? = some notify → notify.height = base + i
  writing : ∀ notify left, sys.worker = .writing notify left → ∀ what, what ∉ left →
    sys.node.stateFile notify.data what ≠ none
  pruning : ∀ topHeight left, sys.worker = .pruning topHeight left →
    topHeight < base + done.length
  kept : ∀ notify ∈ done, base + puts.length ≤ notify.height + 51 → ∀ what,
    sys.node.stateFile notify.data what ≠ none

namespace FilesHeld

variable {base : Int} {puts done : List CDataNotify} {fenv : FileEnv}

theorem call (h : FilesHeld base puts done sys) (hqueue : n'.notifications = sys.node.notifications)
    (hfiles : n'.files = sys.node.files) : FilesHeld base puts done { sys with node := n' } := by
  have hfile : ∀ hash, n'.stateFile hash = sys.node.stateFile hash := fun hash => by
    rw [Node.stateFile, hfiles, Node.stateFile]
  refine ⟨?_, h.height, fun notify left hworker what hwhat => ?_, h.pruning,
    fun notify hmem hnear what => ?_⟩
  · change puts = done ++ sys.worker.notify?.toList ++ n'.notifications
    rw [hqueue]
    exact h.queue
  · change n'.stateFile notify.data what ≠ none
    rw [hfile]
    exact h.writing notify left hworker what hwhat
  · change n'.stateFile notify.data what ≠ none
    rw [hfile]
    exact h.kept notify hmem hnear what

theorem put (h : FilesHeld base puts done sys) {message : BlockMessage}
    {snapshots : List (CDataNotify × State)} (hheight : message.height = base + puts.length) :
    FilesHeld base (puts ++ [message.notify]) done
      { sys with
        node.notifications := sys.node.notifications ++ [message.notify]
        snapshots := snapshots } := by
  refine ⟨?_, fun i notify hget => ?_, h.writing, h.pruning, fun notify hmem hnear => ?_⟩
  · change puts ++ [message.notify] =
      done ++ sys.worker.notify?.toList ++ (sys.node.notifications ++ [message.notify])
    rw [← List.append_assoc, ← h.queue]
  · rcases Nat.lt_trichotomy i puts.length with hlt | heq | hgt
    · rw [List.getElem?_append_left hlt] at hget
      exact h.height i notify hget
    · subst heq
      rw [List.getElem?_concat_length] at hget
      cases hget
      exact hheight
    · rw [List.getElem?_eq_none (by simp; omega)] at hget
      cases hget
  · rw [List.length_append, List.length_singleton] at hnear
    exact h.kept notify hmem (by push_cast at hnear; omega)

theorem height_taken (h : FilesHeld base puts done sys) {notify : CDataNotify}
    (hworker : sys.worker.notify? = some notify) :
    notify ∈ puts ∧ notify.height = base + done.length ∧
      puts.length = done.length + 1 + sys.node.notifications.length := by
  have hqueue := h.queue
  rw [hworker, Option.toList_some] at hqueue
  refine ⟨?_, h.height done.length notify ?_, ?_⟩
  · rw [hqueue]
    simp
  · rw [hqueue]
    simp
  · rw [hqueue]
    simp only [List.length_append, List.length_singleton]

theorem skip (h : FilesHeld base puts done sys) {notify : CDataNotify}
    (hworker : sys.worker = .taken notify) (hmany : sys.node.notifications.length > 50) :
    FilesHeld base puts (done ++ [notify]) { sys with worker := .waiting } := by
  obtain ⟨-, hheight, hlength⟩ := h.height_taken
    (show sys.worker.notify? = some notify by rw [hworker]; rfl)
  refine ⟨?_, h.height, fun _ _ heq => (by cases heq), fun _ _ heq => (by cases heq),
    fun notify' hmem hnear => ?_⟩
  · have hqueue := h.queue
    rw [hworker] at hqueue
    simpa [Worker.notify?] using hqueue
  · rcases List.mem_append.mp hmem with hold | hnew
    · exact h.kept notify' hold hnear
    · -- more than 50 blocks are above the one that is skipped
      rw [List.mem_singleton.mp hnew, hheight] at hnear
      omega

theorem finish (h : FilesHeld base puts done sys) {notify : CDataNotify}
    (hworker : sys.worker = .writing notify []) (hrecorded : sys.node.Recorded notify) :
    FilesHeld base puts (done ++ [notify])
      { sys with
        worker := .pruning (sys.node.heightInHistory notify.data) sys.node.statefulBlockHashes } := by
  obtain ⟨-, hheight, -⟩ := h.height_taken
    (show sys.worker.notify? = some notify by rw [hworker]; rfl)
  refine ⟨?_, h.height, fun _ _ heq => (by cases heq), fun topHeight left heq => ?_,
    fun notify' hmem hnear => ?_⟩
  · have hqueue := h.queue
    rw [hworker] at hqueue
    simpa [Worker.notify?] using hqueue
  · cases heq
    obtain ⟨record, hget, hrecord⟩ := hrecorded
    have htop : sys.node.heightInHistory notify.data = notify.height := by
      unfold Node.heightInHistory
      rw [hget]
      exact hrecord
    rw [htop, hheight, List.length_append, List.length_singleton]
    push_cast
    omega
  · rcases List.mem_append.mp hmem with hold | hnew
    · exact h.kept notify' hold hnear
    · rw [List.mem_singleton.mp hnew]
      exact fun what => h.writing notify [] hworker what List.not_mem_nil

theorem write (h : FilesHeld base puts done sys) {notify : CDataNotify} {what : FileType}
    {left : List FileType} {completed : List Hash}
    (hworker : sys.worker = .writing notify (what :: left)) :
    FilesHeld base puts done
      { sys with
        node := sys.node.writeStateFileEx fenv notify.data what
        worker := .writing notify left
        completed := completed } := by
  have hmore : ∀ hash what', sys.node.stateFile hash what' ≠ none →
      (sys.node.writeStateFileEx fenv notify.data what).stateFile hash what' ≠ none := by
    intro hash what' hthere
    rw [Node.stateFile_writeStateFileEx]
    split
    · exact Option.some_ne_none _
    · exact hthere
  refine ⟨?_, h.height, fun notify' left' heq what' hwhat => ?_, fun _ _ heq => (by cases heq),
    fun notify' hmem hnear what' => hmore _ _ (h.kept notify' hmem hnear what')⟩
  · have hqueue := h.queue
    rw [hworker] at hqueue
    exact hqueue
  · cases heq
    by_cases hsame : what' = what
    · change (sys.node.writeStateFileEx fenv notify.data what).stateFile notify.data what' ≠ none
      rw [Node.stateFile_writeStateFileEx, if_pos ⟨rfl, hsame⟩]
      exact Option.some_ne_none _
    · refine hmore _ _ (h.writing notify _ hworker what' fun hmem => ?_)
      rcases List.mem_cons.mp hmem with heq | hmem
      · exact hsame heq
      · exact hwhat hmem

theorem prune (h : FilesHeld base puts done sys) {topHeight : Int} {hash : Hash} {left : List Hash}
    (hworker : sys.worker = .pruning topHeight (hash :: left))
    (hrecorded : ∀ notify ∈ puts, sys.node.Recorded notify) :
    FilesHeld base puts done
      { sys with node := sys.node.pruneHash topHeight hash, worker := .pruning topHeight left } := by
  have htop := h.pruning topHeight _ hworker
  have hlength : done.length ≤ puts.length := by
    rw [h.queue]
    simp
  have hqueue : puts = done ++ sys.node.notifications := by
    have hq := h.queue
    rw [hworker] at hq
    simpa [Worker.notify?] using hq
  have hstay : FilesHeld base puts done { sys with worker := .pruning topHeight left } := by
    refine ⟨?_, h.height, fun _ _ heq => (by cases heq), fun _ _ heq => ?_, h.kept⟩
    · simpa [Worker.notify?] using hqueue
    · cases heq
      exact htop
  unfold Node.pruneHash
  cases hget : sys.node.blockHistory.getBlockHistoryByHash hash with
  | none => exact hstay
  | some record =>
    simp only
    split
    · next hold =>
        refine ⟨hstay.queue, h.height, fun _ _ heq => (by cases heq), hstay.pruning,
          fun notify hmem hnear what => ?_⟩
        rw [Node.stateFile_erase, if_neg]
        · exact h.kept notify hmem hnear what
        · intro hhash
          obtain ⟨record', hget', hrecord⟩ := hrecorded notify (by
            rw [hqueue]
            exact List.mem_append_left _ hmem)
          rw [hhash, hget] at hget'
          cases hget'
          have hfar := hold.1
          unfold MAX_STATE_HISTORY at hfar
          omega
    · exact hstay

variable (fenv) in
theorem work (h : FilesHeld base puts done sys)
    (hrecorded : ∀ notify ∈ puts, sys.node.Recorded notify) :
    ∃ done', FilesHeld base puts done' (sys.work fenv) := by
  unfold System.work
  split
  · next hworker =>
      split
      · exact ⟨done, h⟩
      · next notify rest hrest =>
          refine ⟨done, ?_, h.height, fun _ _ heq => (by cases heq), fun _ _ heq => (by cases heq),
            h.kept⟩
          have hqueue := h.queue
          rw [hworker, hrest] at hqueue
          simpa [Worker.notify?] using hqueue
  · next notify hworker =>
      split
      · next hskip => exact ⟨_, h.skip hworker hskip.1⟩
      · refine ⟨done, ?_, h.height, fun _ _ heq what hwhat => ?_, fun _ _ heq => (by cases heq),
          h.kept⟩
        · have hqueue := h.queue
          rw [hworker] at hqueue
          exact hqueue
        · cases heq
          exact absurd (mem_fileTypes what) hwhat
  · next hworker => exact ⟨done, h.write hworker⟩
  · next notify hworker =>
      obtain ⟨hmem, -, -⟩ := h.height_taken
        (show sys.worker.notify? = some notify by rw [hworker]; rfl)
      exact ⟨_, h.finish hworker (hrecorded notify hmem)⟩
  · next hworker => exact ⟨done, h.prune hworker hrecorded⟩
  · next hworker =>
      refine ⟨done, ?_, h.height, fun _ _ heq => (by cases heq), fun _ _ heq => (by cases heq),
        h.kept⟩
      have hqueue := h.queue
      rw [hworker] at hqueue
      exact hqueue

end FilesHeld

/-! ### Every interleaving -/

theorem blockHistory_work (fenv : FileEnv) (sys : System) :
    (sys.work fenv).node.blockHistory = sys.node.blockHistory := by
  unfold System.work
  split
  · split <;> rfl
  · split <;> rfl
  · rfl
  · rfl
  · unfold Node.pruneHash
    simp only
    split
    · rfl
    · split <;> rfl
  · rfl

/-- What holds after `before`: the history has the blocks connected so far, and the files of the
blocks put into the queue are kept. -/
structure Retains (base : Int) (before : List Action) (sys : System) : Prop where
  recorded : ∀ message, .connect message ∈ before → sys.node.Recorded message.notify
  keeps : ∃ done, FilesHeld base ((before.filterMap Action.put?).map BlockMessage.notify) done sys

section Retains

variable {base : Int} {blocks : List BlockMessage} {before after : List Action} {action : Action}

theorem Consecutive.notify_injective (h : Consecutive base blocks) {m m' : BlockMessage}
    (hm : m ∈ blocks) (hm' : m' ∈ blocks) (hdata : m.notify.data = m'.notify.data) : m = m' :=
  List.inj_on_of_nodup_map h.nodup hm hm' hdata

theorem filterMap_put_concat (before : List Action) (action : Action) :
    (before ++ [action]).filterMap Action.put? =
      before.filterMap Action.put? ++ action.put?.toList := by
  rw [List.filterMap_append]
  cases action <;> rfl

theorem Retains.recorded_put (h : Retains base before sys) (hall : ConnectsAll actions blocks)
    (hsplit : actions = before ++ after) :
    ∀ notify ∈ (before.filterMap Action.put?).map BlockMessage.notify,
      sys.node.Recorded notify := by
  intro notify hmem
  obtain ⟨message, hput, rfl⟩ := List.mem_map.mp hmem
  obtain ⟨action, haction, hmessage⟩ := List.mem_filterMap.mp hput
  have hthis : action = .put message := by
    cases action with
    | put m =>
      cases hmessage
      rfl
    | _ => cases hmessage
  subst hthis
  obtain ⟨first, second, hbefore⟩ := List.append_of_mem haction
  have hput' : actions = first ++ .put message :: (second ++ after) := by
    rw [hsplit, hbefore, List.append_assoc, List.cons_append]
  refine h.recorded message ?_
  rw [hbefore]
  exact List.mem_append_left _ (hall.connect_mem_of_put hput')

theorem Retains.act (h : Retains base before sys) (hall : ConnectsAll actions blocks)
    (hblocks : Consecutive base blocks) (hsplit : actions = before ++ action :: after)
    (hact : sys.act nenv action = some sys') : Retains base (before ++ [action]) sys' := by
  obtain ⟨done, hkeeps⟩ := h.keeps
  cases action with
  | rpc part =>
    obtain ⟨n', hrun, rfl⟩ := System.call_eq_some hact
    obtain ⟨hqueue, hfiles, hhistory⟩ := part.quiet _ _ hrun
    refine ⟨fun message hmem => ?_, done, ?_⟩
    · obtain ⟨record, hget, hrecord⟩ := h.recorded message (by simpa using hmem)
      refine ⟨record, ?_, hrecord⟩
      rw [hhistory]
      exact hget
    · simp only [filterMap_put_concat, Action.put?, Option.toList_none, List.append_nil]
      exact hkeeps.call hqueue hfiles
  | connect message =>
    obtain ⟨n', hrun, rfl⟩ := System.call_eq_some hact
    obtain ⟨hqueue, hfiles, hhistory⟩ := (wp_ok hrun).mp (quiet_connectBlock message)
    refine ⟨fun message' hmem => ?_, done, ?_⟩
    · have hnew : n'.Recorded message.notify := by
        refine ⟨⟨message.height, uint256S message.hash, message.time⟩, ?_, rfl⟩
        rw [hhistory, COmniBlockHistory.getBlockHistoryByHash_putBlockHistory]
        exact if_pos rfl
      rcases List.mem_append.mp hmem with hold | hlast
      · by_cases hdata : message.notify.data = message'.notify.data
        · have hin : Action.connect message ∈ actions := by rw [hsplit]; simp
          have hin' : Action.connect message' ∈ actions := by
            rw [hsplit]
            exact List.mem_append_left _ hold
          rw [← hblocks.notify_injective (hall.mem_of_connect hin) (hall.mem_of_connect hin')
            hdata]
          exact hnew
        · obtain ⟨record, hget, hrecord⟩ := h.recorded message' hold
          refine ⟨record, ?_, hrecord⟩
          rw [hhistory, COmniBlockHistory.getBlockHistoryByHash_putBlockHistory]
          exact (if_neg hdata).trans hget
      · cases List.mem_singleton.mp hlast
        exact hnew
    · simp only [filterMap_put_concat, Action.put?, Option.toList_none, List.append_nil]
      exact hkeeps.call hqueue hfiles
  | put message =>
    cases hact
    refine ⟨fun message' hmem => h.recorded message' (by simpa using hmem), done, ?_⟩
    rw [filterMap_put_concat, List.map_append]
    refine hkeeps.put (hblocks.height _ message ?_)
    rw [← hall.filterMap_put, hsplit, List.filterMap_append]
    simp [Action.put?]
  | work =>
    cases hact
    obtain ⟨done', hkeeps'⟩ := hkeeps.work nenv.fenv (h.recorded_put hall hsplit)
    refine ⟨fun message hmem => ?_, done', ?_⟩
    · obtain ⟨record, hget, hrecord⟩ := h.recorded message (by simpa using hmem)
      refine ⟨record, ?_, hrecord⟩
      rw [blockHistory_work]
      exact hget
    · simp only [filterMap_put_concat, Action.put?, Option.toList_none, List.append_nil]
      exact hkeeps'

end Retains

/-- **Recent state files survive.**  Blocks of consecutive heights are connected, with anything else
in between, and the threads take turns in any way: once nothing is left to do for the writing
thread, each of the last 51 blocks has all its files. -/
theorem recent_files_kept {base : Int} {blocks : List BlockMessage} (hidle : sys.Idle)
    (hblocks : Consecutive base blocks) (hall : ConnectsAll actions blocks)
    (hrun : sys.actAll nenv actions = some sys') (hend : sys'.Idle) :
    ∀ message ∈ blocks.drop (blocks.length - 51), ∀ what,
      sys'.node.stateFile message.notify.data what ≠ none := by
  have hretains : Retains base actions sys' := by
    refine foldlM_invariant (I := fun before u => Retains base before u) ?_ ?_ hrun
    · refine ⟨fun _ hmem => (by cases hmem), [], ?_, fun _ _ hget => (by cases hget),
        fun _ _ heq => ?_, fun _ _ heq => ?_, fun _ hmem => (by cases hmem)⟩
      · rw [hidle.1, hidle.2]
        rfl
      · rw [hidle.2] at heq
        cases heq
      · rw [hidle.2] at heq
        cases heq
    · intro before action after u u' hsplit _ hu hact
      exact hu.act hall hblocks hsplit hact
  obtain ⟨done, hkeeps⟩ := hretains.keeps
  have hdone : blocks.map BlockMessage.notify = done := by
    have hqueue := hkeeps.queue
    rw [hall.filterMap_put, hend.1, hend.2] at hqueue
    simpa [Worker.notify?] using hqueue
  intro message hmem
  refine hkeeps.kept message.notify ?_ ?_
  · rw [← hdone]
    exact List.mem_map_of_mem (List.mem_of_mem_drop hmem)
  · -- one of the last 51 blocks is at most 50 below the last one
    obtain ⟨i, hget⟩ := List.mem_iff_getElem?.mp hmem
    rw [List.getElem?_drop] at hget
    have hheight := hblocks.height _ _ hget
    rw [hall.filterMap_put, List.length_map]
    change base + (blocks.length : Int) ≤ message.height + 51
    omega

/-- Two blocks are connected, the second one after the first was taken from the queue. -/
def overlappingActions : List Action :=
  .connect (sampleBlock 50000) :: .put (sampleBlock 50000) :: .work ::
    .connect (sampleBlock 50001) :: .put (sampleBlock 50001) :: List.replicate 22 .work

theorem recent_files_kept_overlapping :
    ∃ sys', System.actAll sampleNodeEnv { node := sampleNode } overlappingActions = some sys' ∧
      sys'.Idle ∧ ∀ what, sys'.node.stateFile 50000 what ≠ none ∧
        sys'.node.stateFile 50001 what ≠ none := by
  obtain ⟨sys', hrun⟩ := Option.isSome_iff_exists.mp (by decide +kernel :
    (System.actAll sampleNodeEnv { node := sampleNode } overlappingActions).isSome = true)
  have hvalues : (System.actAll sampleNodeEnv { node := sampleNode } overlappingActions).map
      (fun sys => (sys.node.notifications, sys.worker)) = some ([], .waiting) := by
    decide +kernel
  rw [hrun, Option.map_some, Option.some.injEq, Prod.mk.injEq] at hvalues
  have hblocks : Consecutive 50000 [sampleBlock 50000, sampleBlock 50001] := by
    refine ⟨fun i message hget => ?_, by decide +kernel⟩
    rcases i with _ | _ | i
    · cases hget
      rfl
    · cases hget
      rfl
    · simp at hget
  have hall : ConnectsAll overlappingActions [sampleBlock 50000, sampleBlock 50001] :=
    (rfl : overlappingActions.filter Action.isBlock = _)
  have hkept := recent_files_kept ⟨rfl, rfl⟩ hblocks hall hrun hvalues
  refine ⟨sys', hrun, hvalues, fun what => ⟨?_, ?_⟩⟩
  · exact hkept (sampleBlock 50000) (by decide) what
  · exact hkept (sampleBlock 50001) (by decide) what

end HcOmni
