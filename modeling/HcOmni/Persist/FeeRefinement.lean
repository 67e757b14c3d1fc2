import HcOmni.Persist.FeeCache
import HcOmni.Runs.Invariant

/-!
# The fee cache of the engine and its texts

The engine's state holds the fee cache as histories; the node holds it only as the texts of a
database.  The functions of `dbfees.cpp` are followed on both sides at once: they fail together and in
the same way, leave the same balances, and the texts say again what the histories are.  What else
happens in between does not look at the cache.
-/

namespace HcOmni

open Std MapSum Program Text

namespace COmniFeeCacheDB

variable {env : Env} {s t : State} {db : Database} {p : PropertyId} {block amount : Int}
  {cache : ExtTreeMap PropertyId CacheHistory compare} {α : Type}

/-! ### What does not look at the cache -/

/-- The state with another cache. -/
def withFees (cache : ExtTreeMap PropertyId CacheHistory compare) (s : State) : State :=
  { s with feecache := cache }

/-- The histories in the state of the engine. -/
def feeHistories (s : State) : PropertyId → CacheHistory := fun p => s.feecache.getD p ∅

theorem ignores_assertThat (what : Assertion) (cond : Bool) :
    Ignores (withFees cache) (assertThat what cond) :=
  Ignores.ite (Ignores.pure ()) (Ignores.throw _)

theorem ignores_updateTallyMap (who : Address) (p : PropertyId) (amount : Int) (ttype : TallyType) :
    Ignores (withFees cache) (updateTallyMap who p amount ttype) := by
  unfold updateTallyMap
  refine Ignores.ite (Ignores.pure false) fun s => ?_
  have hfrozen : (withFees cache s).isAddressFrozen who p = s.isAddressFrozen who p := rfl
  change (assertThat _ _ >>= fun _ => _) (withFees cache s) = mapState _ ((assertThat _ _ >>= fun _ => _) s)
  rw [hfrozen]
  generalize (!(decide (ttype = .BALANCE) && decide (amount < 0) && s.isAddressFrozen who p)) = cond
  cases cond <;> rfl

theorem ignores_splitAmount (amount total : Int) (owners : List (Int × Address)) (sent : Int) :
    Ignores (withFees cache) (splitAmount amount total owners sent) := by
  have h256 : ∀ n, Ignores (withFees cache) (convertTo256 n) := fun n =>
    (ignores_assertThat _ _).bind fun _ => Ignores.pure _
  have h64 : ∀ n, Ignores (withFees cache) (convertTo64 n) := fun n =>
    (ignores_assertThat _ _).bind fun _ => Ignores.pure _
  have hdivide : ∀ n d, Ignores (withFees cache) (divideAndRoundUp n d) := fun n d =>
    Ignores.ite (Ignores.pure _)
      (Ignores.bind (Ignores.ite (Ignores.throw _) (Ignores.pure _)) fun _ => Ignores.pure _)
  induction owners generalizing sent with
  | nil => exact Ignores.pure []
  | cons owner rest ih =>
    obtain ⟨owned, address⟩ := owner
    unfold splitAmount
    refine (h256 _).bind fun _ => (h256 _).bind fun _ => (h256 _).bind fun _ => ?_
    refine (hdivide _ _).bind fun _ => (h64 _).bind fun _ => ?_
    exact Ignores.ite (Ignores.bind (ih _) fun _ => Ignores.pure _) (Ignores.pure [])

theorem ignores_payOwners (p : PropertyId) (block cached : Int) :
    Ignores (withFees cache) (payOwners p block cached) := by
  unfold payOwners stoGetReceivers
  refine Ignores.bind (Ignores.get (fun _ => rfl) fun s => ?_) fun receivers => ?_
  · exact (ignores_splitAmount _ _ _ _).bind fun _ => Ignores.pure _
  refine Ignores.bind ?_ fun _ => Ignores.bind (Ignores.modify fun _ => rfl) fun _ =>
    ignores_assertThat _ _
  induction receivers with
  | nil => exact Ignores.pure ()
  | cons receiver rest ih =>
    refine Ignores.bind ((ignores_updateTallyMap _ _ _ _).bind fun _ => ?_) fun _ => ih
    exact ignores_assertThat _ _

theorem feeHistories_setFee :
    feeHistories (s.setFee env p block amount) = Function.update (feeHistories s) p
      ((kept env.mscDebugFees block (feeHistories s p)).insert block amount) := by
  have hfees : (s.setFee env p block amount).feecache =
      s.feecache.insert p (kept env.mscDebugFees block ((feeHistories s p).insert block amount)) := by
    obtain ⟨mostRecent, hmax⟩ : ∃ mostRecent,
        ((feeHistories s p).insert block amount).maxKey? = some mostRecent := by
      refine Option.ne_none_iff_exists'.mp fun hnone => ?_
      simp [ExtTreeMap.maxKey?_eq_none_iff] at hnone
    have hsome : ¬(kept env.mscDebugFees block
        ((feeHistories s p).insert block amount)).isEmpty = true := by
      rw [kept_insert, ExtTreeMap.isEmpty_iff]
      intro hempty
      have hget := congrArg (fun history : CacheHistory => history[block]?) hempty
      simp at hget
    unfold State.setFee State.pruneFees State.putFee
    dsimp only
    simp only [ExtTreeMap.getD_insert_self, insert_insert_self]
    unfold feeHistories at hmax hsome ⊢
    rw [hmax]
    exact congrArg (s.feecache.insert p) (if_neg hsome)
  funext q
  unfold feeHistories at hfees ⊢
  rw [hfees, ExtTreeMap.getD_insert]
  by_cases hq : q = p
  · subst hq
    rw [Function.update_self, kept_insert]
    simp
  · rw [Function.update_of_ne hq]
    simp [Ne.symm hq]

/-! ### The refinement -/

/-- The node with the texts `db` is in the state `s` of the engine: it agrees with it in everything
but the cache, and the texts say what is cached. -/
structure Refines (s : State) (db : Database) (t : State) : Prop where
  rest : withFees s.feecache t = s
  shows : Shows db (feeHistories s)

/-- Both calls return, or both fail in the same way. -/
def Matches : EStateM.Result Halt State Unit → EStateM.Result Halt State Database → Prop
  | .ok _ s, .ok db t => Refines s db t
  | .error e s, .error e' t => e = e' ∧ withFees s.feecache t = s
  | _, _ => False

theorem Matches.bind {m f : Op Unit} {m' : Op Database} {f' : Database → Op Database}
    (hm : Matches (m s) (m' t))
    (hf : ∀ s₁ db₁ t₁, Refines s₁ db₁ t₁ → Matches (f s₁) (f' db₁ t₁)) :
    Matches ((m >>= fun _ => f) s) ((m' >>= f') t) := by
  cases h : m s with
  | ok _ s₁ =>
    cases h' : m' t with
    | ok db₁ t₁ =>
      rw [h, h'] at hm
      rw [bind_of_ok h, bind_of_ok h']
      exact hf s₁ db₁ t₁ hm
    | error e t₁ => rw [h, h'] at hm; exact hm.elim
  | error e s₁ =>
    cases h' : m' t with
    | ok db₁ t₁ => rw [h, h'] at hm; exact hm.elim
    | error e' t₁ =>
      rw [h, h'] at hm
      rw [bind_of_error h, bind_of_error h']
      exact hm

/-- Anything that does not look at the cache. -/
theorem Refines.other (h : Refines s db t) {m : Op Unit}
    (hm : ∀ cache, Ignores (withFees cache) m) : Matches (m s) ((m >>= fun _ => pure db) t) := by
  have hsame : m s = mapState (withFees s.feecache) (m t) := by rw [← hm, h.rest]
  cases ht : m t with
  | ok _ t₁ =>
    rw [hsame, bind_of_ok ht, ht]
    exact ⟨rfl, h.shows⟩
  | error e t₁ =>
    rw [hsame, bind_of_error ht, ht]
    exact ⟨rfl, rfl⟩

/-- An item is written, and the history pruned. -/
theorem Refines.setFee (h : Refines s db t) (env : Env) (p : PropertyId) (hblock : FitsInt 32 block)
    (hamount : FitsInt 64 amount) : ∃ db₀ db₁, putItem db p block amount = some db₀ ∧
      pruneCache env.mscDebugFees db₀ p block = some db₁ ∧
      Refines (s.setFee env p block amount) db₁ t := by
  obtain ⟨db₀, db₁, hput, hprune, hshows⟩ :=
    h.shows.put_prune (p := p) env.mscDebugFees hblock hamount
  refine ⟨db₀, db₁, hput, hprune, ?_, feeHistories_setFee ▸ hshows⟩
  rw [setFee_frame env s p block amount, ← h.rest]
  rfl

theorem Refines.getCachedAmount (h : Refines s db t) (p : PropertyId) :
    getCachedAmount db p = some (s.getCachedAmount p) := by
  rw [h.shows.getCachedAmount p, getCachedAmount_eq]
  rfl

theorem Refines.clearCache (h : Refines s db t) (env : Env) (p : PropertyId) (hblock : FitsInt 32 block) :
    Matches (HcOmni.clearCache env p block s) (orThrow (clearCache env.mscDebugFees db p block) t) := by
  obtain ⟨db₀, db₁, hput, hprune, h₁⟩ := h.setFee env p hblock (by decide : FitsInt 64 0)
  unfold COmniFeeCacheDB.clearCache
  simp only [hput, Option.bind_eq_bind, Option.bind_some, hprune]
  exact h₁

/-- **`EvalCache`**, with the distribution it may trigger: the owners are paid from the same
balances, and both caches are cleared. -/
theorem Refines.evalCache (h : Refines s db t) (hblock : FitsInt 32 block) :
    Matches (HcOmni.evalCache env p block s) (evalCache env.mscDebugFees db p block t) := by
  have hthreshold : s.aux = t.aux := by rw [← h.rest]; rfl
  have hcached := h.getCachedAmount p
  unfold HcOmni.evalCache COmniFeeCacheDB.evalCache distributeCache
  simp only [hcached, orThrow, pure_bind]
  change Matches ((if s.aux.distributionThresholds.getD p 0 ≤ _ then _ else _ : Op Unit) s)
    ((if t.aux.distributionThresholds.getD p 0 ≤ _ then _ else _ : Op Database) t)
  rw [hthreshold]
  split
  · have hpay : Matches ((payOwners p block (s.getCachedAmount p) >>= fun _ =>
        HcOmni.clearCache env p block) s) _ :=
      (h.other fun _ => ignores_payOwners p block _).bind fun _ _ _ h₁ => h₁.clearCache env p hblock
    unfold payOwners at hpay ⊢
    simp only [bind_assoc, pure_bind] at hpay ⊢
    exact hpay
  · exact h

/-- **`AddFee`** -/
theorem Refines.addFee (h : Refines s db t) (hblock : FitsInt 32 block) :
    Matches (HcOmni.addFee env p block amount s) (addFee env.mscDebugFees db p block amount t) := by
  obtain ⟨db₀, db₁, hput, hprune, h₁⟩ :=
    h.setFee env p hblock (fits_toInt64 (s.getCachedAmount p + amount))
  unfold COmniFeeCacheDB.addFee
  simp only [h.getCachedAmount p, hput, hprune, orThrow, pure_bind]
  exact h₁.evalCache hblock

/-- **`RollBackCache`** -/
theorem Refines.rollBackCache (h : Refines s db t) (b : Int) :
    Matches ((modify fun s => s.rollBackCache b : Op Unit) s)
      ((get >>= fun t => orThrow (rollBackCache t.mySps db b)) t) := by
  have hsps : s.mySps = t.mySps := by rw [← h.rest]; rfl
  obtain ⟨db', hroll, hshows⟩ := h.shows.rollBackCache t.mySps b
  change Matches _ (orThrow (COmniFeeCacheDB.rollBackCache t.mySps db b) t)
  rw [hroll]
  have hsame : feeHistories (s.rollBackCache b) = fun p =>
      if t.mySps.issued p then below b (feeHistories s p) else feeHistories s p := by
    funext p
    unfold feeHistories State.rollBackCache
    simp only [ExtTreeMap.getD_eq_getD_getElem?, ExtTreeMap.getElem?_map, hsps]
    cases s.feecache[p]? with
    | none =>
      have hempty : below b ∅ = ∅ := below_eq_self fun _ _ hget => by simp at hget
      simp [hempty]
    | some history => rfl
  refine ⟨?_, hsame ▸ hshows⟩
  change withFees (s.rollBackCache b).feecache t = withFees (s.rollBackCache b).feecache s
  rw [← h.rest]
  rfl

/-! ### Sequences -/

/-- What happens to the node, with an eye on the fee cache. -/
inductive FeeStep where
  | addFee (propertyId : PropertyId) (block amount : Int)
  | clearCache (propertyId : PropertyId) (block : Int)
  | evalCache (propertyId : PropertyId) (block : Int)
  | rollBackCache (block : Int)
  /-- anything that does not look at the cache -/
  | other (m : Op Unit) (ignores : ∀ cache, Ignores (withFees cache) m)

namespace FeeStep

/-- The blocks are `int`s. -/
def InRange : FeeStep → Prop
  | .addFee _ block _ | .clearCache _ block | .evalCache _ block => FitsInt 32 block
  | _ => True

/-- The step of the engine. -/
def exec (env : Env) : FeeStep → Op Unit
  | .addFee propertyId block amount => HcOmni.addFee env propertyId block amount
  | .clearCache propertyId block => HcOmni.clearCache env propertyId block
  | .evalCache propertyId block => HcOmni.evalCache env propertyId block
  | .rollBackCache block => modify fun s => s.rollBackCache block
  | .other m _ => m

/-- The step of the node, on the texts. -/
def execDb (env : Env) (db : Database) : FeeStep → Op Database
  | .addFee propertyId block amount =>
      COmniFeeCacheDB.addFee env.mscDebugFees db propertyId block amount
  | .clearCache propertyId block => orThrow (COmniFeeCacheDB.clearCache env.mscDebugFees db propertyId block)
  | .evalCache propertyId block => COmniFeeCacheDB.evalCache env.mscDebugFees db propertyId block
  | .rollBackCache block => do
      let s ← get
      orThrow (COmniFeeCacheDB.rollBackCache s.mySps db block)
  | .other m _ => do
      m
      pure db

end FeeStep

theorem Refines.exec {step : FeeStep} (h : Refines s db t) (hrange : step.InRange) :
    Matches (step.exec env s) (step.execDb env db t) := by
  cases step with
  | addFee => exact h.addFee hrange
  | clearCache => exact h.clearCache env _ hrange
  | evalCache => exact h.evalCache hrange
  | rollBackCache block => exact h.rollBackCache block
  | other m ignores => exact h.other ignores

/-- **The texts are a faithful cache.**  Whatever sequence of fees, rollbacks and other work, with the
distributions that fees trigger: on the texts it ends as in the engine, by the same failure or with the
same balances, and the texts then say what the engine has cached. -/
theorem feeSteps_refine {steps : List FeeStep} (h : Refines s db t)
    (hrange : ∀ step ∈ steps, step.InRange) :
    Matches (steps.forM (FeeStep.exec env) s) (steps.foldlM (FeeStep.execDb env) db t) := by
  induction steps generalizing s db t with
  | nil => exact h
  | cons step steps ih =>
    obtain ⟨hstep, hsteps⟩ := List.forall_mem_cons.mp hrange
    rw [List.foldlM_cons]
    exact Matches.bind (h.exec hstep) fun s₁ db₁ t₁ h₁ => ih h₁ hsteps

/-- Two fees, the second of which is paid out, and a rollback. -/
def paidOutSteps : List FeeStep := [.addFee 3 100 4, .addFee 3 200 7, .rollBackCache 150]

theorem feeSteps_refine_paidOut : Refines feeState ∅ feeState ∧
    (okResult (paidOutSteps.foldlM (FeeStep.execDb sampleEnv) ∅)
      (fun s => s.money "owner".toList 3 .BALANCE) feeState).map Prod.snd = some 11 ∧
    Matches (paidOutSteps.forM (FeeStep.exec sampleEnv) feeState)
      (paidOutSteps.foldlM (FeeStep.execDb sampleEnv) ∅ feeState) := by
  have hnone : feeHistories feeState = fun _ => ∅ := by
    funext p
    simp [feeHistories, feeState, State.addTally]
  have hstart : Refines feeState ∅ feeState := ⟨rfl, hnone ▸ shows_empty⟩
  exact ⟨hstart, by decide +kernel,
    feeSteps_refine hstart (by simp [paidOutSteps, FeeStep.InRange, FitsInt])⟩

end COmniFeeCacheDB

end HcOmni
