import HcOmni.Conformance.Fees
import HcOmni.Lib.Ordered
import HcOmni.Node.Recovery
import HcOmni.Persist.Rollbacks

/-!
# The fee cache

`COmniFeeCache` (`dbfees.cpp`): the fees collected for each property are one text, the cached amount at
each block that changed it.  Every call reads the whole history of a property, changes it and writes it
back.

The texts are compared with a map from blocks to amounts for every property.  Over the maps it is easy to
see what a rollback restores, and what pruning forgets.
-/

namespace HcOmni

open Std MapSum Text Program Ordered

namespace COmniFeeCacheDB

/-! ### The functions of the database -/

/-- `strprintf("%010d", propertyId)` -/
def cacheKey (propertyId : PropertyId) : Str := zeroPad 10 propertyId

/-- `strprintf("%d:%d", item.first, item.second)` -/
def itemText (item : Int × Int) : Str := colons [showInt item.1, showInt item.2]

/-- One more item in the text of a history. -/
def addItem (newValue : Str) (item : Int × Int) : Str :=
  (if newValue.isEmpty then newValue else newValue ++ [',']) ++ itemText item

/-- An item of `GetCacheHistory`: nothing without two fields, and an exception if they are not numbers.
The block is cast to an `int`. -/
def readItem (text : Str) : Option (Option (Int × Int)) :=
  let vCacheHistoryItem := splitColons text
  if vCacheHistoryItem.length ≠ 2 then some none
  else do
    let cacheItemBlock ← lexicalCastInt 64 (vCacheHistoryItem.getD 0 [])
    let cacheItemAmount ← lexicalCastInt 64 (vCacheHistoryItem.getD 1 [])
    some (some (toInt32 cacheItemBlock, cacheItemAmount))

/-- `GetCacheHistory`, a set of pairs. -/
def getCacheHistory (db : Database) (propertyId : PropertyId) : Option (List (Int × Int)) :=
  match db[cacheKey propertyId]? with
  | none => some []
  | some strValue => do
      let vCacheHistoryItems ← (splitCommas strValue).mapM readItem
      some (asSet toLex vCacheHistoryItems.reduceOption)

/-- `GetCachedAmount` -/
def getCachedAmount (db : Database) (propertyId : PropertyId) : Option Int := do
  let sCacheHistoryItems ← getCacheHistory db propertyId
  match sCacheHistoryItems.getLast? with
  | some mostRecentItem => some mostRecentItem.2
  | none => some 0

/-- The part that `ClearCache` and `AddFee` share: the history without an older item of the block, and
the new item behind it. -/
def putItem (db : Database) (propertyId : PropertyId) (block amount : Int) : Option Database := do
  let sCacheHistoryItems ← getCacheHistory db propertyId
  let newValue := (sCacheHistoryItems.filter fun item => item.1 ≠ block).foldl addItem []
  some (db.insert (cacheKey propertyId) (addItem newValue (block, amount)))

/-- `PruneCache`: the `continue` that skips an old item stands inside the debug branch. -/
def pruneCache (mscDebugFees : Bool) (db : Database) (propertyId : PropertyId) (block : Int) :
    Option Database := do
  let pruneBlock := block - MAX_STATE_HISTORY
  let sCacheHistoryItems ← getCacheHistory db propertyId
  match sCacheHistoryItems.head?, sCacheHistoryItems.getLast? with
  | some firstItem, some mostRecentItem =>
      if firstItem.1 ≥ pruneBlock then some db
      else
        let newValue := (sCacheHistoryItems.filter fun item =>
          !(decide (item.1 < pruneBlock) && mscDebugFees)).foldl addItem []
        let newValue := if newValue.isEmpty then itemText mostRecentItem else newValue
        some (db.insert (cacheKey propertyId) newValue)
  | _, _ => some db

/-- `ClearCache` -/
def clearCache (mscDebugFees : Bool) (db : Database) (propertyId : PropertyId) (block : Int) :
    Option Database := do
  let db ← putItem db propertyId block 0
  pruneCache mscDebugFees db propertyId block

/-- An exception of the database ends the call. -/
def orThrow {α : Type} : Option α → Op α
  | some a => pure a
  | none => throw .thrown

/-- The part of `DistributeCache` before `ClearCache`: the owners of property 1 or 2 are paid. -/
def payOwners (propertyId : PropertyId) (block cachedAmount : Int) : Op Unit := do
  let ownedProperty :=
    if isTestEcosystemProperty propertyId then OMNI_PROPERTY_TMSC else OMNI_PROPERTY_MSC
  let receivers ← stoGetReceivers "FEEDISTRIBUTION".toList ownedProperty cachedAmount
  receivers.forM fun receiver =>
    assertUpdateTallyMap receiver.2 propertyId receiver.1 .BALANCE
  let sentSoFar := (receivers.map Prod.fst).sum
  record (.feeDistribution propertyId block sentSoFar (receivers.map fun r => (r.2, r.1)))
  assertThat .other (decide (sentSoFar = cachedAmount))

/-- `DistributeCache` -/
def distributeCache (mscDebugFees : Bool) (db : Database) (propertyId : PropertyId) (block : Int) :
    Op Database := do
  let cachedAmount ← orThrow (getCachedAmount db propertyId)
  payOwners propertyId block cachedAmount
  orThrow (clearCache mscDebugFees db propertyId block)

/-- `EvalCache`; an unset threshold reads as zero. -/
def evalCache (mscDebugFees : Bool) (db : Database) (propertyId : PropertyId) (block : Int) : Op Database := do
  let s ← get
  let cachedAmount ← orThrow (getCachedAmount db propertyId)
  if s.aux.distributionThresholds.getD propertyId 0 ≤ cachedAmount then
    distributeCache mscDebugFees db propertyId block
  else
    pure db

/-- `AddFee`.  An overflow asks for a shutdown and continues with the wrapped amount. -/
def addFee (mscDebugFees : Bool) (db : Database) (propertyId : PropertyId) (block amount : Int) :
    Op Database := do
  let currentCachedAmount ← orThrow (getCachedAmount db propertyId)
  let newCachedAmount := toInt64 (currentCachedAmount + amount)
  let db ← orThrow (putItem db propertyId block newCachedAmount)
  let db ← orThrow (pruneCache mscDebugFees db propertyId block)
  evalCache mscDebugFees db propertyId block

/-- The loop body of `RollBackCache`. -/
def rollBackProperty (block : Int) (db : Database) (propertyId : PropertyId) : Option Database := do
  let sCacheHistoryItems ← getCacheHistory db propertyId
  match sCacheHistoryItems.getLast? with
  | none => some db
  | some mostRecentItem =>
      if mostRecentItem.1 < block then some db
      else
        let newValue := (sCacheHistoryItems.filter fun item => item.1 < block).foldl addItem []
        some (db.insert (cacheKey propertyId) newValue)

/-- The properties that `RollBackCache` goes through. -/
def rollBackRange (sps : CMPSPInfo) : List PropertyId :=
  List.range' 1 (sps.nextSpid - 1) ++
    List.range' TEST_ECO_PROPERTY_1 (sps.nextTestSpid - TEST_ECO_PROPERTY_1)

/-- `RollBackCache` -/
def rollBackCache (sps : CMPSPInfo) (db : Database) (block : Int) : Option Database :=
  (rollBackRange sps).foldlM (rollBackProperty block) db

/-! ### The histories that are stored -/

/-- The cached amount of a property at each block that changed it. -/
abbrev CacheHistory := ExtTreeMap Int Int compare

/-- A history whose items can be read back. -/
def Fits (history : CacheHistory) : Prop :=
  ∀ block amount : Int, history[block]? = some amount → FitsInt 32 block ∧ FitsInt 64 amount

/-- The texts of the database say what the histories are. -/
structure Shows (db : Database) (histories : PropertyId → CacheHistory) : Prop where
  read : ∀ p, getCacheHistory db p = some (histories p).toList
  fits : ∀ p, Fits (histories p)

theorem itemText_ne_nil (item : Int × Int) : itemText item ≠ [] := by
  cases hblock : showInt item.1 with
  | nil => exact absurd hblock (showInt_ne_nil _)
  | cons c rest => simp [itemText, colons, hblock]

theorem commaFree_itemText (item : Int × Int) : ∀ c ∈ itemText item, (c == ',') = false := by
  intro c hc
  rcases mem_of_mem_intercalate hc with rfl | ⟨token, htoken, hc⟩
  · rfl
  · simp only [List.mem_cons, List.not_mem_nil, or_false] at htoken
    rcases htoken with rfl | rfl
    · exact (isWord_showInt _).commaFree c hc
    · exact (isWord_showInt _).commaFree c hc

theorem intercalate_items_ne_nil {items : List (Int × Int)} (hsome : items ≠ []) :
    [','].intercalate (items.map itemText) ≠ [] := by
  cases items with
  | nil => exact absurd rfl hsome
  | cons item rest =>
    cases htext : itemText item with
    | nil => exact absurd htext (itemText_ne_nil item)
    | cons c text => cases rest <;> simp [htext]

theorem foldl_addItem (items : List (Int × Int)) :
    items.foldl addItem [] = [','].intercalate (items.map itemText) := by
  induction items using List.reverseRecOn with
  | nil => rfl
  | append_singleton items item ih =>
    rw [List.foldl_append, ih, List.map_append]
    simp only [List.foldl_cons, List.foldl_nil, List.map_cons, List.map_nil, addItem]
    by_cases hnil : items = []
    · simp [hnil]
    · have htext := intercalate_items_ne_nil hnil
      rw [intercalate_concat ',' (by simpa using hnil),
        if_neg fun hempty => htext (List.isEmpty_iff.mp hempty), List.append_assoc]
      rfl

theorem readItem_itemText {item : Int × Int} (hblock : FitsInt 32 item.1) (hamount : FitsInt 64 item.2) :
    readItem (itemText item) = some (some item) := by
  have hwide : FitsInt 64 item.1 := ⟨by have := hblock.1; omega, by have := hblock.2; omega⟩
  have hsplit : splitColons (itemText item) = [showInt item.1, showInt item.2] := by
    refine splitColons_colons (field_showInt _).1 fun token htoken => ?_
    rw [List.mem_singleton.mp htoken]
    exact field_showInt _
  unfold readItem
  rw [hsplit]
  simp [lexicalCastInt_showInt hwide, lexicalCastInt_showInt hamount, toInt32_of_fits hblock]

theorem pairwise_toList (history : CacheHistory) :
    history.toList.Pairwise fun x y => toLex x < toLex y :=
  history.ordered_keys_toList.imp fun hlt => Prod.Lex.left _ _ (Std.compare_eq_lt.mp hlt)

/-- **A text is read as the history it was written for**, whatever the order of its items. -/
theorem getCacheHistory_of_text {db : Database} {p : PropertyId} {items : List (Int × Int)}
    {history : CacheHistory} (htext : db[cacheKey p]? = some (items.foldl addItem []))
    (hperm : items.Perm history.toList) (hfits : Fits history) :
    getCacheHistory db p = some history.toList := by
  have hitems : ∀ item ∈ items, FitsInt 32 item.1 ∧ FitsInt 64 item.2 := fun item hmem =>
    hfits _ _ (mem_toList.mp (hperm.subset hmem))
  obtain ⟨found, hread, hfound⟩ := @exists_mapM_splitTokens (· == ',') _ ',' rfl itemText readItem rfl items
    (fun item _ => commaFree_itemText item) (fun item _ => itemText_ne_nil item)
    fun item hmem => readItem_itemText (hitems item hmem).1 (hitems item hmem).2
  have hset : asSet toLex items = history.toList :=
    asSet_of_perm toLex.injective hperm (pairwise_toList history)
  rw [getCacheHistory, htext, foldl_addItem]
  simp only [splitCommas, hread, Option.bind_eq_bind, Option.bind_some, hfound, hset]

/-! ### What the functions do to the histories -/

section Shows

variable {db : Database} {histories : PropertyId → CacheHistory} {p : PropertyId}
  {block amount : Int}

theorem shows_empty : Shows ∅ fun _ => ∅ where
  read p := by simp [getCacheHistory]
  fits p block amount hget := by simp at hget

theorem Shows.insert (hshows : Shows db histories) {items : List (Int × Int)} {history : CacheHistory}
    (hperm : items.Perm history.toList) (hfits : Fits history) :
    Shows (db.insert (cacheKey p) (items.foldl addItem [])) (Function.update histories p history) where
  read q := by
    by_cases hq : q = p
    · subst hq
      rw [Function.update_self]
      exact getCacheHistory_of_text (by simp) hperm hfits
    · have hkey : cacheKey p ≠ cacheKey q := fun heq => hq (zeroPad_injective heq).symm
      have hread := hshows.read q
      unfold getCacheHistory at hread ⊢
      rwa [Function.update_of_ne hq, getElem?_insert_of_ne hkey]
  fits q := by
    by_cases hq : q = p
    · subst hq
      rwa [Function.update_self]
    · rw [Function.update_of_ne hq]
      exact hshows.fits q

theorem latest_eq_getLast (history : CacheHistory) :
    latest history = match history.toList.getLast? with
      | some item => item.2
      | none => 0 := by
  have hmax : history.maxKey? = history.toList.getLast?.map Prod.fst := by
    rw [ExtTreeMap.maxKey?_eq_getLast?_keys, ← ExtTreeMap.map_fst_toList_eq_keys, List.getLast?_map]
  cases hlast : history.toList.getLast? with
  | none =>
    rw [hlast] at hmax
    simp [latest, hmax]
  | some item =>
    rw [hlast] at hmax
    have hitem := mem_toList.mp (List.mem_of_getLast? hlast)
    rw [latest_of_max hmax, ExtTreeMap.getD_eq_getD_getElem?, hitem]
    rfl

theorem Shows.getCachedAmount (hshows : Shows db histories) (p : PropertyId) :
    getCachedAmount db p = some (latest (histories p)) := by
  unfold COmniFeeCacheDB.getCachedAmount
  rw [hshows.read p, latest_eq_getLast]
  cases hlast : (histories p).toList.getLast? <;> simp [hlast]

theorem Fits.insert {history : CacheHistory} (hfits : Fits history) (hblock : FitsInt 32 block)
    (hamount : FitsInt 64 amount) : Fits (history.insert block amount) := by
  intro b a hget
  rcases getElem?_of_insert hget with ⟨rfl, rfl⟩ | ⟨-, hold⟩
  · exact ⟨hblock, hamount⟩
  · exact hfits b a hold

theorem Fits.filter {history : CacheHistory} (hfits : Fits history) (keep : Int → Int → Bool) :
    Fits (history.filter keep) :=
  fun b a hget => hfits b a (getElem?_filter_eq_some.mp hget).1

theorem perm_toList_insert (history : CacheHistory) (block amount : Int) :
    (history.toList.filter (fun item => item.1 ≠ block) ++ [(block, amount)]).Perm
      (history.insert block amount).toList := by
  refine (List.perm_ext_iff_of_nodup ?_ (nodup_toList _)).mpr fun item => ?_
  · refine List.nodup_append.mpr ⟨(nodup_toList _).filter _, List.nodup_singleton _, ?_⟩
    rintro x hx y hy rfl
    rw [List.mem_singleton.mp hy] at hx
    simpa using (List.mem_filter.mp hx).2
  · rw [List.mem_append, List.mem_filter, List.mem_singleton, mem_toList, mem_toList,
      ExtTreeMap.getElem?_insert]
    obtain ⟨b, a⟩ := item
    by_cases hb : block = b
    · simp [hb, eq_comm]
    · simp [hb, Ne.symm hb]

theorem Shows.putItem (hshows : Shows db histories) (hblock : FitsInt 32 block)
    (hamount : FitsInt 64 amount) :
    ∃ db', putItem db p block amount = some db' ∧
      Shows db' (Function.update histories p ((histories p).insert block amount)) := by
  refine ⟨_, ?_, hshows.insert (perm_toList_insert (histories p) block amount)
    ((hshows.fits p).insert hblock hamount)⟩
  unfold COmniFeeCacheDB.putItem
  rw [hshows.read p, List.foldl_append]
  rfl

/-- What pruning leaves of a history that has an item of the block itself. -/
def kept (mscDebugFees : Bool) (block : Int) (history : CacheHistory) : CacheHistory :=
  if mscDebugFees then history.filter fun b _ => decide (block - MAX_STATE_HISTORY ≤ b) else history

theorem kept_insert (debug : Bool) (history : CacheHistory) (block amount : Int) :
    kept debug block (history.insert block amount) = (kept debug block history).insert block amount := by
  unfold kept
  cases debug with
  | false => rfl
  | true =>
    refine ExtTreeMap.ext_getElem? fun b => ?_
    rw [if_pos rfl, if_pos rfl, getElem?_filter, ExtTreeMap.getElem?_insert,
      ExtTreeMap.getElem?_insert, getElem?_filter]
    by_cases hb : block = b
    · have hrecent : block - MAX_STATE_HISTORY ≤ block := by
        unfold MAX_STATE_HISTORY
        omega
      subst hb
      simp [hrecent]
    · simp [hb]

theorem kept_of_recent {debug : Bool} {history : CacheHistory}
    (hrecent : ∀ b a : Int, history[b]? = some a → block - MAX_STATE_HISTORY ≤ b) :
    kept debug block history = history := by
  unfold kept
  cases debug with
  | false => rfl
  | true =>
    refine ExtTreeMap.ext_getElem? fun b => ?_
    rw [if_pos rfl, getElem?_filter]
    cases hget : history[b]? with
    | none => rfl
    | some a => simp [hrecent b a hget]

theorem kept_kept (debug : Bool) (block : Int) (history : CacheHistory) :
    kept debug block (kept debug block history) = kept debug block history := by
  cases debug with
  | false => rfl
  | true =>
    refine kept_of_recent fun b a hget => ?_
    unfold kept at hget
    rw [if_pos rfl] at hget
    simpa using (getElem?_filter_eq_some.mp hget).2

theorem toList_kept (debug : Bool) (block : Int) (history : CacheHistory) :
    (kept debug block history).toList = history.toList.filter fun item =>
      !(decide (item.1 < block - MAX_STATE_HISTORY) && debug) := by
  unfold kept
  cases debug with
  | false => simp
  | true =>
    rw [if_pos rfl, ExtTreeMap.toList_filter]
    refine List.filter_congr fun item _ => ?_
    rw [Bool.and_true, ← decide_not]
    exact decide_eq_decide.mpr (Int.not_lt).symm

theorem le_of_head {history : CacheHistory} {first : Int × Int} (hfirst : history.toList.head? = some first)
    {b a : Int} (hget : history[b]? = some a) : first.1 ≤ b := by
  have hmem : (b, a) ∈ history.toList := mem_toList.mpr hget
  obtain ⟨rest, hrest⟩ := List.head?_eq_some_iff.mp hfirst
  have hordered := history.ordered_keys_toList
  rw [hrest] at hordered hmem
  rcases List.mem_cons.mp hmem with heq | hmem
  · rw [← heq]
  · exact (Std.compare_eq_lt.mp ((List.pairwise_cons.mp hordered).1 _ hmem)).le

theorem Shows.pruneCache (hshows : Shows db histories) (debug : Bool)
    (hitem : ((histories p)[block]?).isSome = true) :
    ∃ db', pruneCache debug db p block = some db' ∧
      Shows db' (Function.update histories p (kept debug block (histories p))) := by
  obtain ⟨amount, hget⟩ := Option.isSome_iff_exists.mp hitem
  have hmem : (block, amount) ∈ (histories p).toList := mem_toList.mpr hget
  unfold COmniFeeCacheDB.pruneCache
  simp only [hshows.read p, Option.bind_eq_bind, Option.bind_some]
  cases hfirst : (histories p).toList.head? with
  | none =>
    rw [List.head?_eq_none_iff.mp hfirst] at hmem
    exact absurd hmem List.not_mem_nil
  | some first =>
    cases hlast : (histories p).toList.getLast? with
    | none =>
      rw [List.getLast?_eq_none_iff.mp hlast] at hmem
      exact absurd hmem List.not_mem_nil
    | some last =>
      dsimp only
      by_cases hrecent : first.1 ≥ block - MAX_STATE_HISTORY
      · -- nothing is old enough
        have hkept : kept debug block (histories p) = histories p :=
          kept_of_recent fun b a hget => hrecent.le.trans (le_of_head hfirst hget)
        refine ⟨db, if_pos hrecent, ?_⟩
        rwa [hkept, Function.update_eq_self]
      · -- the item of the block itself is always kept
        have hin : (block, amount) ∈ (kept debug block (histories p)).toList := by
          rw [toList_kept, List.mem_filter]
          have hnew : ¬block < block - MAX_STATE_HISTORY := by
            unfold MAX_STATE_HISTORY
            omega
          exact ⟨hmem, by simp [hnew]⟩
        have hsome : (kept debug block (histories p)).toList.foldl addItem [] ≠ [] := by
          rw [foldl_addItem]
          exact intercalate_items_ne_nil (List.ne_nil_of_mem hin)
        refine ⟨_, if_neg hrecent, ?_⟩
        rw [← toList_kept, if_neg fun hempty => hsome (List.isEmpty_iff.mp hempty)]
        refine hshows.insert (List.Perm.refl _) ?_
        unfold kept
        split
        · exact (hshows.fits p).filter _
        · exact hshows.fits p

/-- **A write**: the item of the block is replaced, and in debug mode the old items are forgotten. -/
theorem Shows.put_prune (hshows : Shows db histories) (debug : Bool) (hblock : FitsInt 32 block)
    (hamount : FitsInt 64 amount) :
    ∃ db₁ db₂, COmniFeeCacheDB.putItem db p block amount = some db₁ ∧
      COmniFeeCacheDB.pruneCache debug db₁ p block = some db₂ ∧
      Shows db₂ (Function.update histories p ((kept debug block (histories p)).insert block amount)) := by
  obtain ⟨db₁, hput, hshows₁⟩ := hshows.putItem (p := p) hblock hamount
  have hitem : ((Function.update histories p ((histories p).insert block amount) p)[block]?).isSome =
      true := by simp
  obtain ⟨db₂, hprune, hshows₂⟩ := hshows₁.pruneCache debug hitem
  refine ⟨db₁, db₂, hput, hprune, ?_⟩
  rwa [Function.update_self, Function.update_idem, kept_insert] at hshows₂

/-- `ClearCache` leaves a zero item. -/
theorem Shows.clearCache (hshows : Shows db histories) (debug : Bool) (hblock : FitsInt 32 block) :
    ∃ db', clearCache debug db p block = some db' ∧
      Shows db' (Function.update histories p ((kept debug block (histories p)).insert block 0)) := by
  obtain ⟨db₁, db₂, hput, hprune, hshows'⟩ := hshows.put_prune (p := p) debug hblock
    (⟨by norm_num, by norm_num⟩ : FitsInt 64 0)
  refine ⟨db₂, ?_, hshows'⟩
  unfold COmniFeeCacheDB.clearCache
  rw [hput]
  exact hprune

theorem le_of_getLast {history : CacheHistory} {last : Int × Int}
    (hlast : history.toList.getLast? = some last) {b a : Int} (hget : history[b]? = some a) :
    b ≤ last.1 := by
  have hmem : (b, a) ∈ history.toList := mem_toList.mpr hget
  obtain ⟨front, hfront⟩ := List.getLast?_eq_some_iff.mp hlast
  have hordered := history.ordered_keys_toList
  rw [hfront] at hordered hmem
  rcases List.mem_append.mp hmem with hmem | hmem
  · exact (Std.compare_eq_lt.mp ((List.pairwise_append.mp hordered).2.2 _ hmem _ (by simp))).le
  · rw [← List.mem_singleton.mp hmem]

/-- What a rollback leaves of a history. -/
def below (b : Int) (history : CacheHistory) : CacheHistory :=
  history.filter fun itemBlock _ => decide (itemBlock < b)

theorem below_eq_self {history : CacheHistory} {b : Int}
    (h : ∀ itemBlock a : Int, history[itemBlock]? = some a → itemBlock < b) :
    below b history = history := by
  refine ExtTreeMap.ext_getElem? fun itemBlock => ?_
  unfold below
  rw [getElem?_filter]
  cases hget : history[itemBlock]? with
  | none => rfl
  | some a => simp [h itemBlock a hget]

theorem Shows.rollBackProperty (hshows : Shows db histories) (b : Int) (p : PropertyId) :
    ∃ db', rollBackProperty b db p = some db' ∧
      Shows db' (Function.update histories p (below b (histories p))) := by
  unfold COmniFeeCacheDB.rollBackProperty
  simp only [hshows.read p, Option.bind_eq_bind, Option.bind_some]
  cases hlast : (histories p).toList.getLast? with
  | none =>
    refine ⟨db, rfl, ?_⟩
    rwa [below_eq_self, Function.update_eq_self]
    intro itemBlock a hget
    have hmem : (itemBlock, a) ∈ (histories p).toList := mem_toList.mpr hget
    rw [List.getLast?_eq_none_iff.mp hlast] at hmem
    exact absurd hmem List.not_mem_nil
  | some last =>
    dsimp only
    by_cases hbelow : last.1 < b
    · refine ⟨db, if_pos hbelow, ?_⟩
      rwa [below_eq_self fun _ _ hget => (le_of_getLast hlast hget).trans_lt hbelow,
        Function.update_eq_self]
    · have hitems : (below b (histories p)).toList =
          (histories p).toList.filter fun item => decide (item.1 < b) := ExtTreeMap.toList_filter
      refine ⟨_, if_neg hbelow, ?_⟩
      rw [← hitems]
      exact hshows.insert (List.Perm.refl _) ((hshows.fits p).filter _)

theorem Shows.foldlM_rollBackProperty (hshows : Shows db histories) (b : Int) (ps : List PropertyId) :
    ∃ db', ps.foldlM (COmniFeeCacheDB.rollBackProperty b) db = some db' ∧
      Shows db' fun p => if p ∈ ps then below b (histories p) else histories p := by
  induction ps generalizing db histories with
  | nil => exact ⟨db, rfl, by simpa using hshows⟩
  | cons p ps ih =>
    obtain ⟨db₁, hfirst, hshows₁⟩ := hshows.rollBackProperty b p
    obtain ⟨db₂, hrest, hshows₂⟩ := ih hshows₁
    refine ⟨db₂, by rw [List.foldlM_cons, hfirst]; exact hrest, ?_⟩
    have hsame : (fun q => if q ∈ ps then below b (Function.update histories p (below b (histories p)) q)
          else Function.update histories p (below b (histories p)) q) =
        fun q => if q ∈ p :: ps then below b (histories q) else histories q := by
      funext q
      by_cases hq : q = p
      · subst hq
        have htwice : below b (below b (histories q)) = below b (histories q) :=
          below_eq_self fun _ _ hget => by simpa using (getElem?_filter_eq_some.mp hget).2
        simp [htwice]
      · simp [hq]
    rwa [hsame] at hshows₂

theorem mem_rollBackRange {sps : CMPSPInfo} {p : PropertyId} :
    p ∈ rollBackRange sps ↔ sps.issued p = true := by
  unfold rollBackRange CMPSPInfo.issued
  simp only [List.mem_append, List.mem_range'_1, Bool.or_eq_true, decide_eq_true_eq]
  lia

/-- **A rollback keeps the items below its block**, for every property there is. -/
theorem Shows.rollBackCache (hshows : Shows db histories) (sps : CMPSPInfo) (b : Int) :
    ∃ db', rollBackCache sps db b = some db' ∧
      Shows db' fun p => if sps.issued p then below b (histories p) else histories p := by
  obtain ⟨db', hrun, hshows'⟩ := hshows.foldlM_rollBackProperty b (rollBackRange sps)
  refine ⟨db', hrun, ?_⟩
  simpa only [mem_rollBackRange] using hshows'

end Shows

/-! ### Sequences of calls -/

/-- A call that writes to the cache of a property. -/
inductive FeeCall where
  | addFee (propertyId : PropertyId) (block amount : Int)
  | clearCache (propertyId : PropertyId) (block : Int)
  deriving DecidableEq, Repr

def FeeCall.property : FeeCall → PropertyId
  | .addFee propertyId .. => propertyId
  | .clearCache propertyId _ => propertyId

def FeeCall.block : FeeCall → Int
  | .addFee _ block _ => block
  | .clearCache _ block => block

inductive CacheCall where
  | fee (call : FeeCall)
  | rollBackCache (block : Int)
  deriving DecidableEq, Repr

/-- The blocks of a call are `int`s. -/
def CacheCall.InRange : CacheCall → Prop
  | .fee call => FitsInt 32 call.block
  | .rollBackCache _ => True

def CacheCall.perform (mscDebugFees : Bool) (db : Database) : CacheCall → Op Database
  | .fee (.addFee propertyId block amount) => addFee mscDebugFees db propertyId block amount
  | .fee (.clearCache propertyId block) => orThrow (clearCache mscDebugFees db propertyId block)
  | .rollBackCache block => do
      let s ← get
      orThrow (COmniFeeCacheDB.rollBackCache s.mySps db block)

/-- The database after a call that is made in some state of the engine, unless the call is stopped by an
assertion. -/
def after (mscDebugFees : Bool) (db : Database) (c : State × CacheCall) : Option Database :=
  match c.2.perform mscDebugFees db c.1 with
  | .ok db' _ => some db'
  | .error _ _ => none

/-- The database after a sequence of calls.  In between, the state of the engine changes in any way. -/
def runCalls (mscDebugFees : Bool) (db : Database) (calls : List (State × CacheCall)) : Option Database :=
  calls.foldlM (after mscDebugFees) db

/-- Whether the cached amount is paid out. -/
def paysOut (propertyId : PropertyId) (block cachedAmount : Int) : Op Bool := do
  let s ← get
  if s.aux.distributionThresholds.getD propertyId 0 ≤ cachedAmount then do
    payOwners propertyId block cachedAmount
    pure true
  else
    pure false

/-- The amount that is cached when a call is over. -/
def FeeCall.leaves (history : CacheHistory) (s : State) : FeeCall → Option Int
  | .addFee propertyId block amount =>
      let newCachedAmount := toInt64 (latest history + amount)
      match paysOut propertyId block (latest (history.insert block newCachedAmount)) s with
      | .ok true _ => some 0
      | .ok false _ => some newCachedAmount
      | .error _ _ => none
  | .clearCache .. => some 0

/-- The histories after a call. -/
def nextHistories (mscDebugFees : Bool) (histories : PropertyId → CacheHistory)
    (c : State × CacheCall) : Option (PropertyId → CacheHistory) :=
  match c.2 with
  | .fee call => do
      let history := histories call.property
      let amount ← call.leaves history c.1
      some (Function.update histories call.property
        ((kept mscDebugFees call.block history).insert call.block amount))
  | .rollBackCache block =>
      some fun p => if c.1.mySps.issued p then below block (histories p) else histories p

section Refinement

variable {debug : Bool} {db : Database} {histories : PropertyId → CacheHistory}

theorem latest_kept_insert (debug : Bool) (history : CacheHistory) (block amount : Int) :
    latest ((kept debug block history).insert block amount) = latest (history.insert block amount) := by
  rw [← kept_insert]
  cases debug with
  | false => rfl
  | true =>
    unfold kept
    rw [if_pos rfl]
    refine latest_filter (fun b b' _ _ hle hkeep => ?_) fun hempty => ?_
    · simp only [decide_eq_true_eq] at hkeep ⊢
      omega
    · have hget : ((history.insert block amount).filter fun b _ =>
          decide (block - MAX_STATE_HISTORY ≤ b))[block]? = some amount :=
        getElem?_filter_eq_some.mpr ⟨by simp, by simp [MAX_STATE_HISTORY]⟩
      rw [hempty] at hget
      simp at hget

theorem fits_toInt64 (x : Int) : FitsInt 64 (toInt64 x) := by
  have hle := toInt64_le x
  have hge := Int.le_bmod (x := x) (m := 2 ^ 64) (by decide)
  unfold MAX_INT_8_BYTES at hle
  constructor
  · unfold toInt64
    omega
  · omega

theorem evalCache_eq {p : PropertyId} {block cached : Int} {db' : Database}
    (hcached : getCachedAmount db p = some cached)
    (hclear : clearCache debug db p block = some db') :
    evalCache debug db p block = (do
      let paid ← paysOut p block cached
      pure (if paid then db' else db)) := by
  unfold evalCache distributeCache paysOut
  simp only [hcached, hclear, orThrow, pure_bind, bind_assoc]
  refine congrArg (get >>= ·) (funext fun s => ?_)
  split
  · simp
  · simp

/-- `AddFee` on the texts: one item is written, and perhaps cleared again. -/
theorem Shows.addFee_eq (hshows : Shows db histories) (debug : Bool) (p : PropertyId) {block : Int}
    (hblock : FitsInt 32 block) (amount : Int) :
    ∃ db₁ db₂, addFee debug db p block amount = (do
        let paid ← paysOut p block
          (latest ((histories p).insert block (toInt64 (latest (histories p) + amount))))
        pure (if paid then db₂ else db₁)) ∧
      Shows db₁ (Function.update histories p ((kept debug block (histories p)).insert block
        (toInt64 (latest (histories p) + amount)))) ∧
      Shows db₂ (Function.update histories p
        ((kept debug block (histories p)).insert block 0)) := by
  have hfits := fits_toInt64 (latest (histories p) + amount)
  obtain ⟨db₀, db₁, hput, hprune, hshows₁⟩ := hshows.put_prune (p := p) debug hblock hfits
  have hcached := hshows₁.getCachedAmount p
  rw [Function.update_self, latest_kept_insert] at hcached
  obtain ⟨db₂, hclear, hshows₂⟩ := hshows₁.clearCache (p := p) debug hblock
  rw [Function.update_self, Function.update_idem, kept_insert, kept_kept, insert_insert_self] at hshows₂
  refine ⟨db₁, db₂, ?_, hshows₁, hshows₂⟩
  unfold addFee
  simp only [hshows.getCachedAmount p, orThrow, pure_bind, hput, hprune]
  exact evalCache_eq hcached hclear

/-- **The texts and the histories agree after every call.** -/
theorem Shows.after (hshows : Shows db histories) (debug : Bool) {c : State × CacheCall} (hrange : c.2.InRange) :
    Option.Rel Shows (after debug db c) (nextHistories debug histories c) := by
  obtain ⟨s, call⟩ := c
  unfold COmniFeeCacheDB.after nextHistories
  cases call with
  | fee call =>
    cases call with
    | addFee p block amount =>
      have hblock : FitsInt 32 block := hrange
      obtain ⟨db₁, db₂, hadd, hshows₁, hshows₂⟩ := hshows.addFee_eq debug p hblock amount
      have hperform : (CacheCall.fee (.addFee p block amount)).perform debug db = _ := hadd
      simp only [hperform, FeeCall.leaves, FeeCall.property]
      cases hpaid : paysOut p block
          (latest ((histories p).insert block (toInt64 (latest (histories p) + amount)))) s with
      | ok paid s' =>
        rw [bind_of_ok hpaid]
        cases paid with
        | true => exact .some hshows₂
        | false => exact .some hshows₁
      | error e s' =>
        rw [bind_of_error hpaid]
        exact .none
    | clearCache p block =>
      have hblock : FitsInt 32 block := hrange
      obtain ⟨db', hclear, hshows'⟩ := hshows.clearCache (p := p) debug hblock
      have hperform : (CacheCall.fee (.clearCache p block)).perform debug db = pure db' :=
        congrArg orThrow hclear
      simp only [hperform]
      exact .some hshows'
  | rollBackCache block =>
    obtain ⟨db', hroll, hshows'⟩ := hshows.rollBackCache s.mySps block
    have hperform : (CacheCall.rollBackCache block).perform debug db s = .ok db' s := by
      change orThrow (COmniFeeCacheDB.rollBackCache s.mySps db block) s = _
      rw [hroll]
      rfl
    simp only [hperform]
    exact .some hshows'

theorem Shows.runCalls (hshows : Shows db histories) (debug : Bool) {calls : List (State × CacheCall)}
    (hrange : ∀ c ∈ calls, c.2.InRange) :
    Option.Rel Shows (runCalls debug db calls) (calls.foldlM (nextHistories debug) histories) := by
  unfold COmniFeeCacheDB.runCalls
  induction calls generalizing db histories with
  | nil => exact .some hshows
  | cons c calls ih =>
    obtain ⟨hc, hcalls⟩ := List.forall_mem_cons.mp hrange
    rw [List.foldlM_cons, List.foldlM_cons]
    have hnext := hshows.after debug hc
    generalize COmniFeeCacheDB.after debug db c = stored, nextHistories debug histories c = next
      at hnext ⊢
    cases hnext with
    | none => exact .none
    | some hshows' => exact ih hshows' hcalls

end Refinement

/-! ### Rolling back -/

/-- A sequence of calls without a rollback. -/
def feeCalls (calls : List (State × FeeCall)) : List (State × CacheCall) :=
  calls.map fun c => (c.1, .fee c.2)

section RollBack

variable {histories histories' : PropertyId → CacheHistory} {b : Int}

/-- Every item is from a block below `b`. -/
def AllBelow (b : Int) (histories : PropertyId → CacheHistory) : Prop :=
  ∀ p, ∀ itemBlock amount : Int, (histories p)[itemBlock]? = some amount → itemBlock < b

theorem nextHistories_fee {s : State} {call : FeeCall}
    (hnext : nextHistories false histories (s, .fee call) = some histories') :
    ∃ amount, histories' = Function.update histories call.property
      ((histories call.property).insert call.block amount) := by
  obtain ⟨amount, -, hamount⟩ := Option.bind_eq_some_iff.mp hnext
  exact ⟨amount, (Option.some.inj hamount).symm⟩

theorem allBelow_of_fee {s : State} {call : FeeCall}
    (hnext : nextHistories false histories (s, .fee call) = some histories')
    (hbelow : AllBelow b histories) (hblock : call.block < b) : AllBelow b histories' := by
  obtain ⟨amount, rfl⟩ := nextHistories_fee hnext
  intro p itemBlock a hget
  by_cases hp : p = call.property
  · subst hp
    rw [Function.update_self] at hget
    rcases getElem?_of_insert hget with ⟨rfl, -⟩ | ⟨-, hold⟩
    · exact hblock
    · exact hbelow _ _ _ hold
  · rw [Function.update_of_ne hp] at hget
    exact hbelow _ _ _ hget

theorem below_of_fee {s : State} {call : FeeCall}
    (hnext : nextHistories false histories (s, .fee call) = some histories') (hblock : b ≤ call.block)
    (p : PropertyId) : below b (histories' p) = below b (histories p) := by
  obtain ⟨amount, rfl⟩ := nextHistories_fee hnext
  by_cases hp : p = call.property
  · subst hp
    rw [Function.update_self]
    refine ExtTreeMap.ext_getElem? fun itemBlock => ?_
    unfold below
    rw [getElem?_filter, getElem?_filter]
    by_cases hitem : call.block = itemBlock
    · have hlate : ¬itemBlock < b := by omega
      have hnone : ∀ stored : Option Int, stored.filter (fun _ => decide (itemBlock < b)) = none := by
        intro stored
        cases stored <;> simp [hlate]
      rw [hnone, hnone]
    · rw [getElem?_insert_of_ne hitem]
  · rw [Function.update_of_ne hp]

theorem allBelow_of_feeCalls {calls : List (State × FeeCall)} (hbelow : AllBelow b histories)
    (hblocks : ∀ c ∈ calls, c.2.block < b)
    (hrun : (feeCalls calls).foldlM (nextHistories false) histories = some histories') :
    AllBelow b histories' := by
  induction calls generalizing histories with
  | nil =>
    obtain rfl := Option.some.inj hrun
    exact hbelow
  | cons c calls ih =>
    obtain ⟨hc, hcalls⟩ := List.forall_mem_cons.mp hblocks
    obtain ⟨middle, hfirst, hrest⟩ := Option.bind_eq_some_iff.mp hrun
    exact ih (allBelow_of_fee hfirst hbelow hc) hcalls hrest

theorem below_of_feeCalls {calls : List (State × FeeCall)} (hblocks : ∀ c ∈ calls, b ≤ c.2.block)
    (hrun : (feeCalls calls).foldlM (nextHistories false) histories = some histories')
    (p : PropertyId) : below b (histories' p) = below b (histories p) := by
  induction calls generalizing histories with
  | nil =>
    obtain rfl := Option.some.inj hrun
    rfl
  | cons c calls ih =>
    obtain ⟨hc, hcalls⟩ := List.forall_mem_cons.mp hblocks
    obtain ⟨middle, hfirst, hrest⟩ := Option.bind_eq_some_iff.mp hrun
    rw [ih hcalls hrest, below_of_fee hfirst hc]

theorem Shows.exists_of_runCalls {debug : Bool} {db db' : Database} (hshows : Shows db histories)
    {calls : List (State × CacheCall)} (hrange : ∀ c ∈ calls, c.2.InRange)
    (hrun : COmniFeeCacheDB.runCalls debug db calls = some db') :
    ∃ histories', calls.foldlM (nextHistories debug) histories = some histories' ∧
      Shows db' histories' := by
  have hrel := hshows.runCalls debug hrange
  rw [hrun] at hrel
  generalize hnext : calls.foldlM (nextHistories debug) histories = next at hrel
  cases hrel with
  | some hshows' => exact ⟨_, rfl, hshows'⟩

theorem inRange_feeCalls {calls : List (State × FeeCall)} (hrange : ∀ c ∈ calls, FitsInt 32 c.2.block) :
    ∀ c ∈ feeCalls calls, c.2.InRange := by
  intro c hc
  obtain ⟨c', hmem, rfl⟩ := List.mem_map.mp hc
  exact hrange c' hmem

/-- **A rollback restores the cache.**  With debug output off, after calls at blocks below `b` and then
calls at blocks from `b` on, a rollback to `b` gives every property there is the amount it had cached
before the later calls; that is nothing, if there were no earlier ones.  The calls of any sequence whose
blocks never decrease are of this form.  A call that is not stopped has found someone to pay, if it paid. -/
theorem rollBackCache_exact
    {earlier later : List (State × FeeCall)} (hrange : ∀ c ∈ earlier ++ later, FitsInt 32 c.2.block)
    {b : Int} (hearlier : ∀ c ∈ earlier, c.2.block < b) (hlater : ∀ c ∈ later, b ≤ c.2.block)
    {db₁ db₂ : Database} (hfirst : runCalls false ∅ (feeCalls earlier) = some db₁)
    (hsecond : runCalls false db₁ (feeCalls later) = some db₂) (sps : CMPSPInfo) :
    ∃ db₃, rollBackCache sps db₂ b = some db₃ ∧ ∀ p, sps.issued p = true →
      ∃ amount, getCachedAmount db₁ p = some amount ∧ getCachedAmount db₃ p = some amount ∧
        (earlier = [] → amount = 0) := by
  obtain ⟨hrange₁, hrange₂⟩ := List.forall_mem_append.mp hrange
  obtain ⟨h₁, hrun₁, hshows₁⟩ := shows_empty.exists_of_runCalls (inRange_feeCalls hrange₁) hfirst
  obtain ⟨h₂, hrun₂, hshows₂⟩ := hshows₁.exists_of_runCalls (inRange_feeCalls hrange₂) hsecond
  obtain ⟨db₃, hroll, hshows₃⟩ := hshows₂.rollBackCache sps b
  refine ⟨db₃, hroll, fun p hp => ⟨latest (h₁ p), hshows₁.getCachedAmount p, ?_, ?_⟩⟩
  · have hempty : AllBelow b fun _ => ∅ := fun p itemBlock amount hget => by simp at hget
    have hbelow := allBelow_of_feeCalls hempty hearlier hrun₁ p
    rw [hshows₃.getCachedAmount p, if_pos hp, below_of_feeCalls hlater hrun₂ p, below_eq_self hbelow]
  · rintro rfl
    obtain rfl := Option.some.inj hrun₁
    simp [latest]

end RollBack

/-- A state with an owner of property 1, in which ten tokens of property 3 are paid out. -/
def feeState : State :=
  let thresholds := (∅ : ExtTreeMap PropertyId Int compare).insert 3 10
  State.addTally
    { mySps := { nextSpid := 4 }
      aux := { params := mainConsensusParams, distributionThresholds := thresholds } }
    "owner".toList 1 5 .BALANCE

/-- A fee at block 100, and one at block 200 by which the cache is paid out. -/
theorem rollBackCache_exact_paidOut :
    ∃ db₁ db₂ db₃, runCalls false ∅ (feeCalls [(feeState, .addFee 3 100 4)]) = some db₁ ∧
      runCalls false db₁ (feeCalls [(feeState, .addFee 3 200 7)]) = some db₂ ∧
      rollBackCache feeState.mySps db₂ 150 = some db₃ ∧
      ∃ amount, getCachedAmount db₁ 3 = some amount ∧ getCachedAmount db₃ 3 = some amount := by
  have hboth : ((runCalls false ∅ (feeCalls [(feeState, .addFee 3 100 4)])).bind fun db =>
      runCalls false db (feeCalls [(feeState, .addFee 3 200 7)])).isSome = true := by decide +kernel
  obtain ⟨db₂, hdb₂⟩ := Option.isSome_iff_exists.mp hboth
  obtain ⟨db₁, hfirst, hsecond⟩ := Option.bind_eq_some_iff.mp hdb₂
  obtain ⟨db₃, hroll, hexact⟩ := rollBackCache_exact (b := 150) (by simp [FeeCall.block, FitsInt])
    (by simp [FeeCall.block]) (by simp [FeeCall.block]) hfirst hsecond feeState.mySps
  obtain ⟨amount, hbefore, hafter, -⟩ := hexact 3 (by decide +kernel)
  exact ⟨db₁, db₂, db₃, hfirst, hsecond, hroll, amount, hbefore, hafter⟩

/-! ### Debug output -/

/-- What a call does to the blocks of a property whose items have not been rolled back. -/
def liveStep (p : PropertyId) (blocks : List Int) (c : State × CacheCall) : List Int :=
  match c.2 with
  | .fee call => if call.property = p then call.block :: blocks else blocks
  | .rollBackCache b => if c.1.mySps.issued p then blocks.filter (· < b) else blocks

/-- The blocks of the calls on a property that no rollback has taken back. -/
def live (p : PropertyId) (calls : List (State × CacheCall)) : List Int := calls.foldl (liveStep p) []

/-- No call comes more than `MAX_STATE_HISTORY` blocks after one on the same property that has not been
rolled back. -/
def NeverOld (calls : List (State × CacheCall)) : Prop :=
  ∀ earlier s call later, calls = earlier ++ (s, .fee call) :: later →
    ∀ b ∈ live call.property earlier, call.block - MAX_STATE_HISTORY ≤ b

/-- After the call only the most recent item may be old. -/
def RecentAfter (call : FeeCall) (db : Database) : Prop :=
  ∃ items, getCacheHistory db call.property = some items ∧
    ∀ item ∈ items.dropLast, call.block - MAX_STATE_HISTORY ≤ item.1

/-- The histories are the same with debug output and without it, after each call, and none of them keeps
old items. -/
def DebugIrrelevant (calls : List (State × CacheCall)) : Prop :=
  ∀ before rest, calls = before ++ rest →
    ∃ on off, runCalls true ∅ before = some on ∧ runCalls false ∅ before = some off ∧
      (∀ p, getCacheHistory on p = getCacheHistory off p) ∧
      ∀ earlier s call, before = earlier ++ [(s, .fee call)] →
        RecentAfter call on ∧ RecentAfter call off

section Debug

variable {histories histories' : PropertyId → CacheHistory} {calls : List (State × CacheCall)}

/-- The items of a history are those of the live calls. -/
def HasBlocks (history : CacheHistory) (blocks : List Int) : Prop :=
  ∀ b : Int, (history[b]?).isSome = true ↔ b ∈ blocks

theorem hasBlocks_next {c : State × CacheCall} {p : PropertyId} {blocks : List Int}
    (hblocks : HasBlocks (histories p) blocks)
    (hnext : nextHistories false histories c = some histories') :
    HasBlocks (histories' p) (liveStep p blocks c) := by
  obtain ⟨s, call⟩ := c
  cases call with
  | fee call =>
    obtain ⟨amount, rfl⟩ := nextHistories_fee hnext
    intro b
    unfold liveStep
    dsimp only
    by_cases hp : call.property = p
    · subst hp
      rw [Function.update_self, if_pos rfl, List.mem_cons, ← hblocks b, ExtTreeMap.getElem?_insert]
      by_cases hb : call.block = b
      · simp [hb]
      · simp [hb, Ne.symm hb]
    · rw [Function.update_of_ne (Ne.symm hp), if_neg hp]
      exact hblocks b
  | rollBackCache b =>
    obtain rfl := Option.some.inj hnext
    intro itemBlock
    unfold liveStep
    dsimp only
    split
    · rw [List.mem_filter, ← hblocks itemBlock, below, getElem?_filter]
      cases hget : (histories p)[itemBlock]? with
      | none => simp
      | some a => simp [Option.filter]
    · exact hblocks itemBlock

theorem hasBlocks_of_run (hrun : calls.foldlM (nextHistories false) (fun _ => ∅) = some histories)
    (p : PropertyId) : HasBlocks (histories p) (live p calls) := by
  induction calls using List.reverseRecOn generalizing histories with
  | nil =>
    obtain rfl := Option.some.inj hrun
    intro b
    simp [live]
  | append_singleton calls c ih =>
    rw [List.foldlM_append] at hrun
    obtain ⟨middle, hfirst, hlast⟩ := Option.bind_eq_some_iff.mp hrun
    rw [live, List.foldl_append]
    have hlast' : nextHistories false middle c = some histories := by simpa using hlast
    exact hasBlocks_next (ih hfirst) hlast'

theorem nextHistories_debug {c : State × CacheCall}
    (hrecent : ∀ call, c.2 = .fee call → ∀ b a : Int, (histories call.property)[b]? = some a →
      call.block - MAX_STATE_HISTORY ≤ b) :
    nextHistories true histories c = nextHistories false histories c := by
  obtain ⟨s, call⟩ := c
  cases call with
  | fee call =>
    unfold nextHistories
    dsimp only
    rw [kept_of_recent (hrecent call rfl), kept_of_recent (hrecent call rfl)]
  | rollBackCache b => rfl

theorem run_debug (hold : NeverOld calls)
    (hoff : calls.foldlM (nextHistories false) (fun _ => ∅) = some histories) :
    calls.foldlM (nextHistories true) (fun _ => ∅) = some histories := by
  induction calls using List.reverseRecOn generalizing histories with
  | nil => exact hoff
  | append_singleton calls c ih =>
    rw [List.foldlM_append] at hoff ⊢
    obtain ⟨middle, hfirst, hlast⟩ := Option.bind_eq_some_iff.mp hoff
    have hearlier : NeverOld calls := fun earlier s call later heq =>
      hold earlier s call (later ++ [c]) (by rw [heq]; simp)
    have hsame : nextHistories true middle c = nextHistories false middle c := by
      refine nextHistories_debug fun call hcall b a hget => ?_
      have hlive := (hasBlocks_of_run hfirst call.property b).mp (by rw [hget]; rfl)
      exact hold calls c.1 call [] (by rw [← hcall]) b hlive
    rw [ih hearlier hfirst]
    simp only [List.foldlM_cons, List.foldlM_nil, Option.bind_eq_bind, Option.bind_some, hsame] at hlast ⊢
    exact hlast

theorem recentAfter_iff {db : Database} (hshows : Shows db histories) {call : FeeCall}
    (hitem : ((histories call.property)[call.block]?).isSome = true) :
    RecentAfter call db ↔ ∀ b a : Int, (histories call.property)[b]? = some a →
      call.block - MAX_STATE_HISTORY ≤ b := by
  constructor
  · rintro ⟨items, hread, hrecent⟩ b a hget
    obtain rfl := Option.some.inj ((hshows.read _).symm.trans hread)
    have hmem : (b, a) ∈ (histories call.property).toList := mem_toList.mpr hget
    obtain ⟨last, hlast⟩ := Option.ne_none_iff_exists'.mp
      (fun hnone => List.ne_nil_of_mem hmem (List.getLast?_eq_none_iff.mp hnone))
    rw [← List.dropLast_append_getLast? last hlast, List.mem_append] at hmem
    rcases hmem with hmem | hmem
    · exact hrecent (b, a) hmem
    · obtain ⟨own, hown⟩ := Option.isSome_iff_exists.mp hitem
      have hle := le_of_getLast hlast hown
      rw [← List.mem_singleton.mp hmem] at hle
      unfold MAX_STATE_HISTORY
      dsimp only at hle
      omega
  · intro hrecent
    exact ⟨_, hshows.read _, fun item hmem =>
      hrecent item.1 item.2 (mem_toList.mp (List.mem_of_mem_dropLast hmem))⟩

theorem isSome_of_fee {s : State} {call : FeeCall}
    (hnext : nextHistories false histories (s, .fee call) = some histories') :
    ((histories' call.property)[call.block]?).isSome = true := by
  obtain ⟨amount, rfl⟩ := nextHistories_fee hnext
  simp

theorem exists_of_concat {c : State × CacheCall} {debug : Bool}
    (hrun : (calls ++ [c]).foldlM (nextHistories debug) (fun _ => ∅) = some histories) :
    ∃ middle, calls.foldlM (nextHistories debug) (fun _ => ∅) = some middle ∧
      nextHistories debug middle c = some histories := by
  rw [List.foldlM_append] at hrun
  obtain ⟨middle, hfirst, hlast⟩ := Option.bind_eq_some_iff.mp hrun
  exact ⟨middle, hfirst, by simpa using hlast⟩

/-- **Debug output changes the fee cache exactly if some call comes more than `MAX_STATE_HISTORY` blocks
after a live one on the same property**, since only with debug output old items are pruned. -/
theorem debugIrrelevant_iff (hrange : ∀ c ∈ calls, c.2.InRange)
    (hcomplete : (runCalls false ∅ calls).isSome = true) : DebugIrrelevant calls ↔ NeverOld calls := by
  constructor
  · intro hsame earlier s call later heq b hlive
    have hsplit : calls = (earlier ++ [(s, .fee call)]) ++ later := by simp [heq]
    obtain ⟨on, off, -, hoff, -, hrecent⟩ := hsame _ later hsplit
    obtain ⟨histories, hrun, hshows⟩ := shows_empty.exists_of_runCalls
      (fun c hc => hrange c (by rw [hsplit]; exact List.mem_append_left _ hc)) hoff
    obtain ⟨middle, hfirst, hlast⟩ := exists_of_concat hrun
    obtain ⟨a, hget⟩ := Option.isSome_iff_exists.mp ((hasBlocks_of_run hfirst call.property b).mpr hlive)
    have hall := (recentAfter_iff hshows (isSome_of_fee hlast)).mp (hrecent earlier s call rfl).2
    by_cases hb : call.block = b
    · unfold MAX_STATE_HISTORY
      omega
    · obtain ⟨amount, rfl⟩ := nextHistories_fee hlast
      refine hall b a ?_
      rwa [Function.update_self, getElem?_insert_of_ne hb]
  · rintro hold before rest rfl
    have hrange' : ∀ c ∈ before, c.2.InRange := fun c hc => hrange c (List.mem_append_left _ hc)
    have hold' : NeverOld before := fun earlier s call later heq =>
      hold earlier s call (later ++ rest) (by rw [heq]; simp)
    -- the calls so far are made in both runs
    obtain ⟨off, hoff⟩ : ∃ off, runCalls false ∅ before = some off := by
      obtain ⟨db, hdb⟩ := Option.isSome_iff_exists.mp hcomplete
      unfold runCalls at hdb
      rw [List.foldlM_append] at hdb
      obtain ⟨off, hoff, -⟩ := Option.bind_eq_some_iff.mp hdb
      exact ⟨off, hoff⟩
    obtain ⟨histories, hrun, hshows⟩ := shows_empty.exists_of_runCalls hrange' hoff
    obtain ⟨on, hon, hshows'⟩ : ∃ on, runCalls true ∅ before = some on ∧ Shows on histories := by
      have hrel := shows_empty.runCalls true hrange'
      rw [run_debug hold' hrun] at hrel
      generalize hstored : runCalls true ∅ before = stored at hrel
      cases hrel with
      | some hshows' => exact ⟨_, rfl, hshows'⟩
    refine ⟨on, off, hon, hoff, fun p => by rw [hshows.read, hshows'.read], ?_⟩
    rintro earlier s call rfl
    obtain ⟨middle, hfirst, hlast⟩ := exists_of_concat hrun
    have hitem := isSome_of_fee hlast
    have hrecent : ∀ b a : Int, (histories call.property)[b]? = some a →
        call.block - MAX_STATE_HISTORY ≤ b := by
      obtain ⟨amount, rfl⟩ := nextHistories_fee hlast
      intro b a hget
      rw [Function.update_self] at hget
      rcases getElem?_of_insert hget with ⟨rfl, -⟩ | ⟨-, hget⟩
      · unfold MAX_STATE_HISTORY
        omega
      · refine hold' earlier s call [] rfl b ?_
        exact (hasBlocks_of_run hfirst call.property b).mp (by rw [hget]; rfl)
    exact ⟨(recentAfter_iff hshows' hitem).mpr hrecent, (recentAfter_iff hshows hitem).mpr hrecent⟩

end Debug

/-- Two fees that are forty blocks apart. -/
theorem debugIrrelevant_iff_close :
    DebugIrrelevant [(feeState, .fee (.addFee 3 100 4)), (feeState, .fee (.addFee 3 140 5))] := by
  refine (debugIrrelevant_iff (by simp [CacheCall.InRange, FeeCall.block, FitsInt])
    (by decide +kernel)).mpr ?_
  intro earlier s call later heq b hlive
  rcases earlier with _ | ⟨first, _ | ⟨second, rest⟩⟩
  · simp [live] at hlive
  · simp only [List.cons_append, List.nil_append, List.cons.injEq, Prod.mk.injEq, CacheCall.fee.injEq] at heq
    obtain ⟨rfl, ⟨-, rfl⟩, -⟩ := heq
    simp only [live, liveStep, FeeCall.property, List.foldl_cons, List.foldl_nil, if_true,
      List.mem_singleton] at hlive
    simp [FeeCall.block, MAX_STATE_HISTORY, hlive]
  · simp at heq

/-- Two fees that are a hundred blocks apart, and a rollback to a block between them. -/
def debugCalls : List (State × CacheCall) :=
  [(feeState, .fee (.addFee 3 100 4)), (feeState, .fee (.addFee 3 200 5)),
    (feeState, .rollBackCache 150)]

/-- With debug output the first fee is forgotten. -/
theorem exists_fee_forgotten :
    ∃ on off, runCalls true ∅ debugCalls = some on ∧ runCalls false ∅ debugCalls = some off ∧
      getCachedAmount on 3 = some 0 ∧ getCachedAmount off 3 = some 4 := by
  have hon : ((runCalls true ∅ debugCalls).bind fun db => getCachedAmount db 3) = some 0 := by
    decide +kernel
  have hoff : ((runCalls false ∅ debugCalls).bind fun db => getCachedAmount db 3) = some 4 := by
    decide +kernel
  obtain ⟨on, hrun, hon⟩ := Option.bind_eq_some_iff.mp hon
  obtain ⟨off, hrun', hoff⟩ := Option.bind_eq_some_iff.mp hoff
  exact ⟨on, off, hrun, hrun', hon, hoff⟩

end COmniFeeCacheDB

end HcOmni
