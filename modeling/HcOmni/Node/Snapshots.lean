import HcOmni.Node.Worker
import HcOmni.Node.Parked

/-!
# What the state files contain

The files of a block are written from the state in memory at the time of writing.  They describe
the state at the end of the block if nothing that is stored changes from the time when the block is
put into the queue until its last file is written.
-/

namespace HcOmni

open Std Program Text

variable {n n' : Node} {nenv : NodeEnv} {sys sys' : System} {actions : List Action}

/-! ### Writing while the memory stands still -/

/-- A state whose files would be the same. -/
def SameFiles (fenv : FileEnv) (s s' : State) : Prop :=
  ∀ what, writeStateFile fenv s what = writeStateFile fenv s' what

/-- A block is in the queue, or its files are being written. -/
def System.Busy (sys : System) : Prop :=
  sys.node.notifications ≠ [] ∨
    match sys.worker with
    | .taken _ => True
    | .writing _ left => left ≠ []
    | _ => False

/-- The writing thread has written some of the files of a block, and not yet all of them. -/
def System.Writes (sys : System) (hash : Hash) : Prop :=
  ∃ notify left, sys.worker = .writing notify left ∧ left ≠ [] ∧ notify.data = hash

/-- The calls of the node leave the memory as it is while the writing thread is busy. -/
def Waits (nenv : NodeEnv) : System → List Action → Prop
  | _, [] => True
  | sys, action :: actions =>
      (∀ u, sys.Busy → sys.act nenv action = some u →
        SameFiles nenv.fenv sys.node.core u.node.core) ∧
      ∀ u, sys.act nenv action = some u → Waits nenv u actions

/-- The state in memory is the one noted for a notification, as far as the files go. -/
def System.Current (fenv : FileEnv) (sys : System) (notify : CDataNotify) : Prop :=
  ∃ s, (notify, s) ∈ sys.snapshots ∧ SameFiles fenv s sys.node.core

/-- The files of a block were removed, or they were all written from one and the same state, which
was noted for this block. -/
def System.Consistent (fenv : FileEnv) (sys : System) (hash : Hash) : Prop :=
  (sys.node.stateFile hash = fun _ => none) ∨
    ∃ p ∈ sys.snapshots, p.1.data = hash ∧
      ∀ what, sys.node.stateFile hash what = some (writeStateFile fenv p.2 what)

structure Tracks (fenv : FileEnv) (sys : System) : Prop where
  queue : ∀ notify ∈ sys.node.notifications, sys.Current fenv notify
  taken : ∀ notify, sys.worker = .taken notify → sys.Current fenv notify
  writing : ∀ notify left, sys.worker = .writing notify left → left ≠ [] →
    sys.Current fenv notify ∧ ∀ what, what ∉ left →
      sys.node.stateFile notify.data what = some (writeStateFile fenv sys.node.core what)
  done : ∀ hash ∈ sys.completed, ¬sys.Writes hash → sys.Consistent fenv hash

namespace Tracks

variable {fenv : FileEnv}

theorem start (hidle : sys.Idle) (hfresh : sys.completed = []) : Tracks fenv sys := by
  obtain ⟨hqueue, hworker⟩ := hidle
  refine ⟨fun _ h => ?_, fun _ h => ?_, fun _ _ h => ?_, fun _ h => ?_⟩
  · rw [hqueue] at h
    cases h
  · rw [hworker] at h
    cases h
  · rw [hworker] at h
    cases h
  · rw [hfresh] at h
    cases h

theorem call (h : Tracks fenv sys)
    (hqueue : n'.notifications = sys.node.notifications) (hfiles : n'.files = sys.node.files)
    (hsame : sys.Busy → SameFiles fenv sys.node.core n'.core) :
    Tracks fenv { sys with node := n' } := by
  have hfile : ∀ hash, n'.stateFile hash = sys.node.stateFile hash := fun hash => by
    rw [Node.stateFile, hfiles, Node.stateFile]
  have hcurrent : ∀ {notify}, sys.Busy → sys.Current fenv notify →
      System.Current fenv { sys with node := n' } notify := by
    rintro notify hbusy ⟨s, hs, hcore⟩
    exact ⟨s, hs, fun what => (hcore what).trans (hsame hbusy what)⟩
  refine ⟨fun notify hmem => ?_, fun notify htaken => ?_, fun notify left hwriting hleft => ?_,
    fun hash hmem hwrites => ?_⟩
  · change notify ∈ n'.notifications at hmem
    rw [hqueue] at hmem
    exact hcurrent (.inl (List.ne_nil_of_mem hmem)) (h.queue notify hmem)
  · change sys.worker = _ at htaken
    refine hcurrent (.inr ?_) (h.taken notify htaken)
    rw [htaken]
    trivial
  · change sys.worker = _ at hwriting
    have hbusy : sys.Busy := .inr (by rw [hwriting]; exact hleft)
    obtain ⟨hcur, hwritten⟩ := h.writing notify left hwriting hleft
    refine ⟨hcurrent hbusy hcur, fun what hwhat => ?_⟩
    change n'.stateFile notify.data what = some (writeStateFile fenv n'.core what)
    rw [hfile, hwritten what hwhat, hsame hbusy what]
  · have hold := h.done hash hmem hwrites
    unfold System.Consistent at hold ⊢
    rw [← hfile] at hold
    exact hold

theorem put (h : Tracks fenv sys) (message : BlockMessage) :
    Tracks fenv
      { sys with
        node.notifications := sys.node.notifications ++ [message.notify]
        snapshots := sys.snapshots ++ [(message.notify, sys.node.core)] } := by
  have hcurrent : ∀ {notify}, sys.Current fenv notify → System.Current fenv
      { sys with
        node.notifications := sys.node.notifications ++ [message.notify]
        snapshots := sys.snapshots ++ [(message.notify, sys.node.core)] } notify := by
    rintro notify ⟨s, hs, hcore⟩
    exact ⟨s, List.mem_append_left _ hs, hcore⟩
  refine ⟨fun notify hmem => ?_, fun notify htaken => hcurrent (h.taken notify htaken),
    fun notify left hwriting hleft => ?_, fun hash hmem hwrites => ?_⟩
  · rcases List.mem_append.mp hmem with hold | hnew
    · exact hcurrent (h.queue notify hold)
    · rw [List.mem_singleton.mp hnew]
      exact ⟨sys.node.core, by simp, fun _ => rfl⟩
  · obtain ⟨hcur, hwritten⟩ := h.writing notify left hwriting hleft
    exact ⟨hcurrent hcur, hwritten⟩
  · rcases h.done hash hmem hwrites with hgone | ⟨p, hp, hdata, hall⟩
    · exact .inl hgone
    · exact .inr ⟨p, List.mem_append_left _ hp, hdata, hall⟩

theorem worker (h : Tracks fenv sys) {worker : Worker}
    (htaken : ∀ notify, worker = .taken notify → sys.Current fenv notify)
    (hwriting : ∀ notify left, worker = .writing notify left →
      left = fileTypes ∧ sys.Current fenv notify)
    (hnot : ∀ hash, ¬sys.Writes hash) : Tracks fenv { sys with worker := worker } := by
  refine ⟨h.queue, htaken, fun notify left heq _ => ?_, fun hash hmem _ => h.done hash hmem (hnot hash)⟩
  obtain ⟨rfl, hcur⟩ := hwriting notify left heq
  exact ⟨hcur, fun what hwhat => absurd (mem_fileTypes what) hwhat⟩

theorem write (h : Tracks fenv sys) {notify : CDataNotify} {what : FileType}
    {left : List FileType} (hworker : sys.worker = .writing notify (what :: left)) :
    Tracks fenv
      { sys with
        node := sys.node.writeStateFileEx fenv notify.data what
        worker := .writing notify left
        completed := if left = [] then notify.data :: sys.completed else sys.completed } := by
  obtain ⟨hcur, hwritten⟩ := h.writing notify _ hworker (List.cons_ne_nil _ _)
  -- the files written so far, this one included
  have hnow : ∀ what', what' ∉ left →
      (sys.node.writeStateFileEx fenv notify.data what).stateFile notify.data what' =
        some (writeStateFile fenv sys.node.core what') := by
    intro what' hleft
    rw [Node.stateFile_writeStateFileEx]
    by_cases heq : what' = what
    · rw [if_pos ⟨rfl, heq⟩, heq]
    · rw [if_neg fun hc => heq hc.2]
      refine hwritten what' fun hmem => ?_
      rcases List.mem_cons.mp hmem with rfl | hmem
      · exact heq rfl
      · exact hleft hmem
  refine ⟨h.queue, fun _ htaken => (by cases htaken), fun notify' left' heq _ => ?_,
    fun hash hmem hwrites => ?_⟩
  · cases heq
    exact ⟨hcur, hnow⟩
  · by_cases hhash : hash = notify.data
    · -- the last file makes the set complete
      subst hhash
      have hleft : left = [] := by
        by_contra hne
        exact hwrites ⟨notify, left, rfl, hne, rfl⟩
      subst hleft
      obtain ⟨s, hs, hsame⟩ := hcur
      refine .inr ⟨(notify, s), hs, rfl, fun what' => ?_⟩
      rw [hsame what']
      exact hnow what' List.not_mem_nil
    · have hother : (sys.node.writeStateFileEx fenv notify.data what).stateFile hash =
          sys.node.stateFile hash := by
        funext what'
        rw [Node.stateFile_writeStateFileEx, if_neg fun hc => hhash hc.1]
      have hmem' : hash ∈ sys.completed := by
        change hash ∈ (if left = [] then notify.data :: sys.completed else sys.completed) at hmem
        split at hmem
        · exact (List.mem_cons.mp hmem).resolve_left hhash
        · exact hmem
      have hold := h.done hash hmem' fun ⟨_, _, hw, _, hdata⟩ => by
        rw [hworker] at hw
        cases hw
        exact hhash hdata.symm
      unfold System.Consistent at hold ⊢
      rw [← hother] at hold
      exact hold

theorem prune (h : Tracks fenv sys) {topHeight : Int} {hash : Hash} {left : List Hash}
    (hworker : sys.worker = .pruning topHeight (hash :: left)) :
    Tracks fenv
      { sys with node := sys.node.pruneHash topHeight hash, worker := .pruning topHeight left } := by
  have hnot : ∀ hash, ¬sys.Writes hash := by
    rintro _ ⟨_, _, hw, -⟩
    rw [hworker] at hw
    cases hw
  have hstay : Tracks fenv { sys with worker := .pruning topHeight left } :=
    h.worker (fun _ heq => by cases heq) (fun _ _ heq => by cases heq) hnot
  unfold Node.pruneHash
  cases sys.node.blockHistory.getBlockHistoryByHash hash with
  | none => exact hstay
  | some record =>
    simp only
    split
    · refine ⟨hstay.queue, hstay.taken, fun _ _ heq => (by cases heq), fun hash' hmem _ => ?_⟩
      have hold := h.done hash' hmem (hnot hash')
      by_cases hhash : hash' = hash
      · refine .inl ?_
        rw [Node.stateFile_erase, if_pos hhash]
      · unfold System.Consistent at hold ⊢
        simp only [Node.stateFile_erase, if_neg hhash]
        exact hold
    · exact hstay

theorem work (h : Tracks fenv sys) : Tracks fenv (sys.work fenv) := by
  unfold System.work
  split
  · next hworker =>
      have hnot : ∀ hash, ¬sys.Writes hash := by
        rintro _ ⟨_, _, hw, -⟩
        rw [hworker] at hw
        cases hw
      split
      · exact h
      · next notify rest hqueue =>
          have hfirst := h.queue notify (by rw [hqueue]; exact List.mem_cons_self)
          refine ⟨fun notify' hmem => ?_, fun _ heq => ?_, fun _ _ heq => (by cases heq),
            fun hash hmem _ => h.done hash hmem (hnot hash)⟩
          · exact h.queue notify' (by rw [hqueue]; exact List.mem_cons_of_mem _ hmem)
          · cases heq
            exact hfirst
  · next notify hworker =>
      have hnot : ∀ hash, ¬sys.Writes hash := by
        rintro _ ⟨_, _, hw, -⟩
        rw [hworker] at hw
        cases hw
      split
      · exact h.worker (fun _ heq => by cases heq) (fun _ _ heq => by cases heq) hnot
      · refine h.worker (fun _ heq => by cases heq) (fun _ _ heq => ?_) hnot
        cases heq
        exact ⟨rfl, h.taken notify hworker⟩
  · next hworker => exact h.write hworker
  · next hworker =>
      refine h.worker (fun _ heq => by cases heq) (fun _ _ heq => by cases heq) ?_
      rintro _ ⟨_, _, hw, hleft, -⟩
      rw [hworker] at hw
      cases hw
      exact hleft rfl
  · next hworker => exact h.prune hworker
  · next hworker =>
      refine h.worker (fun _ heq => by cases heq) (fun _ _ heq => by cases heq) ?_
      rintro _ ⟨_, _, hw, -⟩
      rw [hworker] at hw
      cases hw

theorem act (h : Tracks nenv.fenv sys) {action : Action}
    (hsame : sys.Busy → sys.act nenv action = some sys' →
      SameFiles nenv.fenv sys.node.core sys'.node.core)
    (hact : sys.act nenv action = some sys') : Tracks nenv.fenv sys' := by
  cases action with
  | rpc part =>
    obtain ⟨n', hrun, rfl⟩ := System.call_eq_some hact
    obtain ⟨hqueue, hfiles, -⟩ := part.quiet _ _ hrun
    exact h.call hqueue hfiles fun hbusy => hsame hbusy hact
  | connect message =>
    obtain ⟨n', hrun, rfl⟩ := System.call_eq_some hact
    obtain ⟨hqueue, hfiles, -⟩ := (wp_ok hrun).mp (quiet_connectBlock message)
    exact h.call hqueue hfiles fun hbusy => hsame hbusy hact
  | put message =>
    cases hact
    exact h.put message
  | work =>
    cases hact
    exact h.work

end Tracks

theorem tracks_actAll (h : Tracks nenv.fenv sys) (hwaits : Waits nenv sys actions)
    (hrun : sys.actAll nenv actions = some sys') : Tracks nenv.fenv sys' := by
  induction actions generalizing sys with
  | nil =>
    cases hrun
    exact h
  | cons action actions ih =>
    unfold System.actAll at hrun
    simp only [List.foldlM_cons, Option.bind_eq_bind, Option.bind_eq_some_iff] at hrun
    obtain ⟨u, hact, hrest⟩ := hrun
    exact ih (h.act (hwaits.1 u) hact) (hwaits.2 u hact) hrest

/-- **The files of a block describe the state at its end**, for every interleaving in which nothing
that is stored changes between the notification about a block and the last of its files: a set that
was completed in the run was written from the state noted for the block. -/
theorem files_describe_block (hidle : sys.Idle) (hfresh : sys.completed = [])
    (hwaits : Waits nenv sys actions) (hrun : sys.actAll nenv actions = some sys') {hash : Hash}
    (hcompleted : hash ∈ sys'.completed) (hnot : ¬sys'.Writes hash)
    (hthere : ∀ what, sys'.node.stateFile hash what ≠ none) :
    ∃ p ∈ sys'.snapshots, p.1.data = hash ∧
      ∀ what, sys'.node.stateFile hash what = some (writeStateFile nenv.fenv p.2 what) := by
  have htracks := tracks_actAll (Tracks.start hidle hfresh) hwaits hrun
  rcases htracks.done hash hcompleted hnot with hgone | hall
  · exact absurd (congrFun hgone .BALANCES) (hthere .BALANCES)
  · exact hall

theorem waits_of_forall (h : ∀ action ∈ actions, action = .work ∨ ∃ m, action = .put m) :
    Waits nenv sys actions := by
  induction actions generalizing sys with
  | nil => trivial
  | cons action actions ih =>
    refine ⟨fun u _ hact => ?_, fun u _ => ih fun a ha => h a (List.mem_cons_of_mem _ ha)⟩
    rcases h action List.mem_cons_self with rfl | ⟨m, rfl⟩
    · cases hact
      rw [System.core_work]
      exact fun _ => rfl
    · cases hact
      exact fun _ => rfl

/-- A block is connected, and all its files are written before anything else happens. -/
def pausedActions : List Action :=
  .connect (sampleBlock 50000) :: .put (sampleBlock 50000) :: List.replicate 8 .work

theorem files_describe_block_paused :
    ∃ sys', System.actAll sampleNodeEnv { node := sampleNode } pausedActions = some sys' ∧
      ∃ p ∈ sys'.snapshots, p.1.data = 50000 ∧
        ∀ what, sys'.node.stateFile 50000 what =
          some (writeStateFile sampleFileEnv p.2 what) := by
  obtain ⟨sys', hrun⟩ := Option.isSome_iff_exists.mp (by decide +kernel :
    (System.actAll sampleNodeEnv { node := sampleNode } pausedActions).isSome = true)
  have hvalues : (System.actAll sampleNodeEnv { node := sampleNode } pausedActions).map (fun sys =>
      (sys.completed, sys.worker, fileTypes.map fun what =>
        (sys.node.stateFile 50000 what).isSome)) =
      some ([50000], .writing ⟨50000, 50000⟩ [], List.replicate 6 true) := by decide +kernel
  rw [hrun, Option.map_some, Option.some.injEq, Prod.mk.injEq, Prod.mk.injEq] at hvalues
  obtain ⟨hcompleted, hworker, hthere⟩ := hvalues
  have hwaits : Waits sampleNodeEnv { node := sampleNode } pausedActions := by
    refine ⟨fun u hbusy _ => ?_, fun u _ => waits_of_forall (by simp)⟩
    rcases hbusy with hqueue | hworker
    · exact absurd rfl hqueue
    · exact hworker.elim
  refine ⟨sys', hrun, files_describe_block ⟨rfl, rfl⟩ rfl hwaits hrun
    (by rw [hcompleted]; exact List.mem_cons_self) ?_ fun what => ?_⟩
  · rintro ⟨notify, left, heq, hleft, -⟩
    rw [hworker] at heq
    cases heq
    exact hleft rfl
  · have hsome : (sys'.node.stateFile 50000 what).isSome = true := by
      have hmem := List.mem_map_of_mem (f := fun what => (sys'.node.stateFile 50000 what).isSome)
        (mem_fileTypes what)
      rw [hthere] at hmem
      exact (List.eq_of_mem_replicate hmem)
    exact Option.isSome_iff_ne_none.mp hsome

/-- A transaction of the next block comes before the files of the last block are written. -/
def hurriedActions : List Action :=
  .connect (sampleBlock 50001) :: .put (sampleBlock 50001) ::
    .rpc (.tx sampleNodeEnv issuanceMessage) :: List.replicate 8 .work

/-- **The files of a block describe a later state**: they hold the tokens issued by a transaction of
the next block. -/
theorem exists_files_of_later_state :
    ∃ sys' s, System.actAll sampleNodeEnv { node := startNode } hurriedActions = some sys' ∧
      sys'.completed = [50001] ∧ sys'.worker = .writing (sampleBlock 50001).notify [] ∧
      sys'.snapshots = [((sampleBlock 50001).notify, s)] ∧
      s.money "alice".toList 3 .BALANCE = 0 ∧
      sys'.node.stateFile 50001 .BALANCES ≠ some (writeStateFile sampleFileEnv s .BALANCES) := by
  obtain ⟨sys', hrun⟩ := Option.isSome_iff_exists.mp (by decide +kernel :
    (System.actAll sampleNodeEnv { node := startNode } hurriedActions).isSome = true)
  have hvalues : (System.actAll sampleNodeEnv { node := startNode } hurriedActions).map (fun sys =>
      (sys.completed, sys.worker, sys.snapshots.map fun p =>
        (p.1, p.2.money "alice".toList 3 .BALANCE, decide (sys.node.stateFile 50001 .BALANCES =
          some (writeStateFile sampleFileEnv p.2 .BALANCES))))) =
      some ([50001], .writing (sampleBlock 50001).notify [],
        [((sampleBlock 50001).notify, 0, false)]) := by decide +kernel
  rw [hrun, Option.map_some, Option.some.injEq, Prod.mk.injEq, Prod.mk.injEq] at hvalues
  obtain ⟨hcompleted, hworker, hsnapshots⟩ := hvalues
  obtain ⟨⟨notify, s⟩, hsingle, hentry⟩ := List.map_eq_singleton_iff.mp hsnapshots
  simp only [Prod.mk.injEq] at hentry
  obtain ⟨rfl, hmoney, hfile⟩ := hentry
  exact ⟨sys', s, hrun, hcompleted, hworker, hsingle, hmoney, of_decide_eq_false hfile⟩

end HcOmni
