import HcOmni.Ledger.Frame

/-!
# The supply of properties

For every property created by a transaction, the tokens held by all addresses together with the
cached fees are exactly those issued: the stored number for a fixed property, grants less
revokes for a managed one, and the tokens created by purchases and at the closing for a
crowdsale.  The statement needs identifiers that are not used twice, and fits `int64_t`.
-/

namespace HcOmni

open Std MapSum Program CMPTally State

/-! ### Issued tokens -/

/-- Grants less revokes, as recorded with a managed property. -/
def grantedTokens (data : ExtTreeMap Hash (List Int) compare) : Int :=
  mapSum data fun _ record => record.getD 0 0 - record.getD 1 0

/-- The tokens created for users and issuer, as recorded for every purchase of a crowdsale. -/
def crowdsaleTokens (data : ExtTreeMap Hash (List Int) compare) : Int :=
  mapSum data fun _ record => record.getD 2 0 + record.getD 3 0

/-- The active crowdsale of a property. -/
def crowdOf (crowds : ExtTreeMap Address CMPCrowd compare) (p : PropertyId) : Option CMPCrowd :=
  (crowds.toList.find? fun entry => entry.2.propertyId == p).map Prod.snd

/-- The tokens issued of a property with the given entry and active crowdsale. -/
def issuedTokens (info : Entry) (crowd : Option CMPCrowd) : Int :=
  if info.fixed then info.numTokens
  else if info.manual then grantedTokens info.historicalData
  else
    match crowd with
    | some crowd => crowd.uCreated + crowd.iCreated
    | none => crowdsaleTokens info.historicalData + info.missedTokens

section IssuedTokens

variable {info : Entry}

theorem issuedTokens_of_fixed (h : info.fixed = true) (crowd : Option CMPCrowd) :
    issuedTokens info crowd = info.numTokens := by
  simp [issuedTokens, h]

theorem issuedTokens_of_manual (hfixed : info.fixed = false) (hmanual : info.manual = true)
    (crowd : Option CMPCrowd) : issuedTokens info crowd = grantedTokens info.historicalData := by
  simp [issuedTokens, hfixed, hmanual]

theorem issuedTokens_of_active (hfixed : info.fixed = false) (hmanual : info.manual = false)
    (crowd : CMPCrowd) : issuedTokens info (some crowd) = crowd.uCreated + crowd.iCreated := by
  simp [issuedTokens, hfixed, hmanual]

theorem issuedTokens_of_closed (hfixed : info.fixed = false) (hmanual : info.manual = false) :
    issuedTokens info none = crowdsaleTokens info.historicalData + info.missedTokens := by
  simp [issuedTokens, hfixed, hmanual]

end IssuedTokens

/-- The tokens issued of a property: none before it is created. -/
def State.issued (s : State) (p : PropertyId) : Int :=
  match s.mySps.entries[p]? with
  | none => 0
  | some info => issuedTokens info (crowdOf s.myCrowds p)

theorem State.issued_of_entry {s : State} {p : PropertyId} {info : Entry}
    (h : s.mySps.entries[p]? = some info) :
    s.issued p = issuedTokens info (crowdOf s.myCrowds p) := by
  simp [issued, h]

theorem State.issued_of_none {s : State} {p : PropertyId} (h : s.mySps.entries[p]? = none) :
    s.issued p = 0 := by
  simp [issued, h]

theorem State.issued_congr {s s' : State} {p : PropertyId}
    (hentry : s'.mySps.entries[p]? = s.mySps.entries[p]?)
    (hcrowd : crowdOf s'.myCrowds p = crowdOf s.myCrowds p) : s'.issued p = s.issued p := by
  unfold issued
  rw [hentry, hcrowd]

/-! ### Active crowdsales -/

/-- No two addresses run a crowdsale for the same property. -/
def CrowdsUnique (crowds : ExtTreeMap Address CMPCrowd compare) : Prop :=
  ∀ (a b : Address) (crowd crowd' : CMPCrowd), crowds[a]? = some crowd →
    crowds[b]? = some crowd' → crowd.propertyId = crowd'.propertyId → a = b

section Crowds

variable {crowds crowds' : ExtTreeMap Address CMPCrowd compare} {p : PropertyId} {a : Address}
  {crowd : CMPCrowd}

theorem crowdOf_eq_none (h : ∀ (a : Address) (crowd : CMPCrowd), crowds[a]? = some crowd → crowd.propertyId ≠ p) :
    crowdOf crowds p = none := by
  unfold crowdOf
  rw [Option.map_eq_none_iff, List.find?_eq_none]
  intro entry hmem
  simpa using h entry.1 entry.2 (mem_toList.mp hmem)

theorem crowdOf_eq_some (hunique : CrowdsUnique crowds) (h : crowds[a]? = some crowd)
    (hp : crowd.propertyId = p) : crowdOf crowds p = some crowd := by
  unfold crowdOf
  cases hfind : crowds.toList.find? fun entry => entry.2.propertyId == p with
  | none =>
    have hnot := List.find?_eq_none.mp hfind (a, crowd) (mem_toList.mpr h)
    simp [hp] at hnot
  | some entry =>
    have hentry := mem_toList.mp (List.mem_of_find?_eq_some hfind)
    have hprop : entry.2.propertyId = p := by simpa using List.find?_some hfind
    have hsame := hunique entry.1 a entry.2 crowd hentry h (hprop.trans hp.symm)
    rw [hsame, h] at hentry
    simpa using hentry.symm

theorem crowdOf_congr (hunique : CrowdsUnique crowds) (hunique' : CrowdsUnique crowds')
    (h : ∀ (a : Address) (crowd : CMPCrowd), crowd.propertyId = p →
      (crowds'[a]? = some crowd ↔ crowds[a]? = some crowd)) :
    crowdOf crowds' p = crowdOf crowds p := by
  by_cases hex : ∃ (a : Address) (crowd : CMPCrowd), crowds[a]? = some crowd ∧ crowd.propertyId = p
  · obtain ⟨a, crowd, hget, hp⟩ := hex
    rw [crowdOf_eq_some hunique hget hp, crowdOf_eq_some hunique' ((h a crowd hp).mpr hget) hp]
  · have hnone : ∀ (a : Address) (crowd : CMPCrowd), crowds[a]? = some crowd →
        crowd.propertyId ≠ p :=
      fun a crowd hget hp => hex ⟨a, crowd, hget, hp⟩
    rw [crowdOf_eq_none hnone, crowdOf_eq_none]
    intro a crowd hget hp
    exact hnone a crowd ((h a crowd hp).mp hget) hp

theorem CrowdsUnique.replace {crowd' : CMPCrowd} (hunique : CrowdsUnique crowds)
    (h : crowds[a]? = some crowd) (hp : crowd'.propertyId = crowd.propertyId) :
    CrowdsUnique (crowds.insert a crowd') := by
  have hold : ∀ (b : Address) (e : CMPCrowd), (crowds.insert a crowd')[b]? = some e →
      ∃ e' : CMPCrowd, crowds[b]? = some e' ∧ e'.propertyId = e.propertyId := by
    intro b e hget
    rcases getElem?_of_insert hget with ⟨rfl, rfl⟩ | ⟨-, hget⟩
    · exact ⟨crowd, h, hp.symm⟩
    · exact ⟨e, hget, rfl⟩
  intro b b' e e' hb hb' heq
  obtain ⟨o, ho, hop⟩ := hold b e hb
  obtain ⟨o', ho', hop'⟩ := hold b' e' hb'
  exact hunique b b' o o' ho ho' (hop.trans (heq.trans hop'.symm))

theorem CrowdsUnique.insert (hunique : CrowdsUnique crowds)
    (hnew : ∀ (b : Address) (e : CMPCrowd), crowds[b]? = some e → e.propertyId ≠ crowd.propertyId) :
    CrowdsUnique (crowds.insert a crowd) := by
  intro b b' e e' hb hb' heq
  rcases getElem?_of_insert hb with ⟨rfl, rfl⟩ | ⟨-, hb⟩ <;>
    rcases getElem?_of_insert hb' with ⟨rfl, rfl⟩ | ⟨-, hb'⟩
  · rfl
  · exact absurd heq.symm (hnew b' e' hb')
  · exact absurd heq (hnew b e hb)
  · exact hunique b b' e e' hb hb' heq

theorem CrowdsUnique.erase (hunique : CrowdsUnique crowds) : CrowdsUnique (crowds.erase a) :=
  fun b b' e e' hb hb' heq =>
    hunique b b' e e' (getElem?_of_erase hb).2 (getElem?_of_erase hb').2 heq

end Crowds

/-! ### The invariant -/

/-- The identifiers given out so far, and where the counters stand. -/
structure IdsOk (sps : CMPSPInfo) : Prop where
  main : 3 ≤ sps.nextSpid ∧ sps.nextSpid ≤ TEST_ECO_PROPERTY_1
  test : sps.nextTestSpid = 0 ∨
    (TEST_ECO_PROPERTY_1 ≤ sps.nextTestSpid ∧ sps.nextTestSpid < 2 ^ 32)
  used : ∀ (p : PropertyId) (info : Entry), sps.entries[p]? = some info → (3 ≤ p ∧ p < sps.nextSpid) ∨
    (TEST_ECO_PROPERTY_1 ≤ p ∧ p < 2 ^ 32 ∧ (sps.nextTestSpid = 0 ∨ p < sps.nextTestSpid))

/-- An active crowdsale and the entry of its property. -/
structure CrowdOk (sps : CMPSPInfo) (crowd : CMPCrowd) : Prop where
  entry : ∃ info : Entry, sps.entries[crowd.propertyId]? = some info ∧ info.fixed = false ∧
    info.manual = false ∧ info.missedTokens = 0
  nonneg : 0 ≤ crowd.uCreated ∧ 0 ≤ crowd.iCreated
  data : crowd.uCreated + crowd.iCreated = crowdsaleTokens crowd.txFundraiserData

/-- The most tokens there can be of properties 1 and 2 before the vesting starts. -/
def BASE_SUPPLY : Int := 2 ^ 60

/-- Supply is accounted for. -/
structure Supply (c : Ctx) (s : State) : Prop where
  ids : IdsOk s.mySps
  kinds : ∀ (p : PropertyId) (info : Entry), s.mySps.entries[p]? = some info →
    info.manual = true → info.fixed = false
  crowds : ∀ (a : Address) (crowd : CMPCrowd), s.myCrowds[a]? = some crowd → CrowdOk s.mySps crowd
  unique : CrowdsUnique s.myCrowds
  total : ∀ p, 2 < p → s.held p + s.getCachedAmount p = s.issued p
  bounded : ∀ p, 2 < p → s.issued p ≤ MAX_INT_8_BYTES
  cached : ∀ p, 0 ≤ s.getCachedAmount p
  base : ∀ p, p ≤ 2 → s.held p + s.getCachedAmount p ≤ BASE_SUPPLY + s.aux.exodusPrev
  reward : s.aux.exodusPrev ≤ ALL_REWARD
  ordered : s.FeesOrdered c.block

/-! ### Steps that issue nothing -/

theorem State.getCachedAmount_congr {s s' : State} (h : s'.feecache = s.feecache)
    (p : PropertyId) : s'.getCachedAmount p = s.getCachedAmount p := by
  unfold getCachedAmount
  rw [h]

theorem State.FeesOrdered.congr {s s' : State} {block : Int} (hs : s.FeesOrdered block)
    (h : s'.feecache = s.feecache) : s'.FeesOrdered block := by
  unfold FeesOrdered
  rw [h]
  exact hs

namespace Supply

variable {c : Ctx} {s s' : State}

theorem congr (hs : Supply c s) (hsps : s'.mySps = s.mySps) (hcrowds : s'.myCrowds = s.myCrowds)
    (htotal : ∀ p, 2 < p → s'.held p + s'.getCachedAmount p = s.held p + s.getCachedAmount p)
    (hbase : ∀ p, p ≤ 2 →
      s'.held p + s'.getCachedAmount p ≤ s.held p + s.getCachedAmount p)
    (hcached : ∀ p, 0 ≤ s'.getCachedAmount p) (hvested : s'.aux.exodusPrev = s.aux.exodusPrev)
    (hordered : s'.FeesOrdered c.block) : Supply c s' := by
  have hissued : ∀ p, s'.issued p = s.issued p := fun p =>
    issued_congr (by rw [hsps]) (by rw [hcrowds])
  refine ⟨?_, ?_, ?_, ?_, ?_, ?_, hcached, ?_, ?_, hordered⟩
  · rw [hsps]; exact hs.ids
  · rw [hsps]; exact hs.kinds
  · rw [hsps, hcrowds]; exact hs.crowds
  · rw [hcrowds]; exact hs.unique
  · intro p hp
    rw [htotal p hp, hissued]
    exact hs.total p hp
  · intro p hp
    rw [hissued]
    exact hs.bounded p hp
  · intro p hp
    rw [hvested]
    exact (hbase p hp).trans (hs.base p hp)
  · rw [hvested]; exact hs.reward

theorem of_held (hs : Supply c s) (hsps : s'.mySps = s.mySps) (hcrowds : s'.myCrowds = s.myCrowds)
    (hfees : s'.feecache = s.feecache) (hvested : s'.aux.exodusPrev = s.aux.exodusPrev)
    (hheld : ∀ p, s'.held p = s.held p) : Supply c s' := by
  refine hs.congr hsps hcrowds (fun p _ => ?_) (fun p _ => ?_) (fun p => ?_) hvested
    (hs.ordered.congr hfees)
  · rw [getCachedAmount_congr hfees, hheld]
  · rw [getCachedAmount_congr hfees, hheld]
  · rw [getCachedAmount_congr hfees]
    exact hs.cached p

theorem fee {p : PropertyId} {fee : Int} (hs : Supply c s) (htracks : c.Tracks s)
    (hfee : FeeStep c p fee s s')
    (hzero : fee = 0) : Supply c s' := by
  have htotal : ∀ q, s'.held q + s'.getCachedAmount q = s.held q + s.getCachedAmount q := by
    intro q
    simpa [hzero] using hfee.total htracks q
  exact hs.congr hfee.mySps_eq hfee.myCrowds_eq (fun q _ => htotal q)
    (fun q _ => Int.le_of_eq (htotal q)) (hfee.cached htracks) hfee.vested (hfee.ordered hs.ordered)

/-! ### Steps that issue tokens -/

theorem of_change {p : PropertyId} {n : Int} (hs : Supply c s) (hp : 2 < p)
    (hids : IdsOk s'.mySps)
    (hkinds : ∀ (q : PropertyId) (info : Entry), s'.mySps.entries[q]? = some info →
      info.manual = true → info.fixed = false)
    (hcrowds : ∀ (a : Address) (crowd : CMPCrowd), s'.myCrowds[a]? = some crowd →
      CrowdOk s'.mySps crowd)
    (hunique : CrowdsUnique s'.myCrowds)
    (hheld : ∀ q, s'.held q = s.held q + if p = q then n else 0)
    (hissued : ∀ q, s'.issued q = s.issued q + if p = q then n else 0)
    (hbound : s.issued p + n ≤ MAX_INT_8_BYTES) (hfees : s'.feecache = s.feecache)
    (hvested : s'.aux.exodusPrev = s.aux.exodusPrev) : Supply c s' := by
  refine ⟨hids, hkinds, hcrowds, hunique, ?_, ?_, ?_, ?_, ?_, hs.ordered.congr hfees⟩
  · intro q hq
    rw [getCachedAmount_congr hfees, hheld, hissued, ← hs.total q hq]
    omega
  · intro q hq
    rw [hissued]
    by_cases h : p = q
    · subst h
      rwa [if_pos rfl]
    · rw [if_neg h, Int.add_zero]
      exact hs.bounded q hq
  · intro q
    rw [getCachedAmount_congr hfees]
    exact hs.cached q
  · intro q hq
    have hne : p ≠ q := by lia
    rw [getCachedAmount_congr hfees, hheld, if_neg hne, hvested, Int.add_zero]
    exact hs.base q hq
  · rw [hvested]
    exact hs.reward

end Supply

/-! ### New properties -/

section Create

variable {s : State} {ecosystem : Nat} {info : Entry}

theorem IdsOk.create {sps : CMPSPInfo} (hids : IdsOk sps)
    (heco : ecosystem = 1 ∨ ecosystem = 2) (hid : 0 < sps.peekNextSPID ecosystem)
    (hspace : (sps.putSP ecosystem info).2.nextSpid ≠ 0 ∧
      (sps.putSP ecosystem info).2.nextSpid ≤ TEST_ECO_PROPERTY_1) :
    2 < sps.peekNextSPID ecosystem ∧ sps.entries[sps.peekNextSPID ecosystem]? = none ∧
      (sps.putSP ecosystem info).2.entries =
        sps.entries.insert (sps.peekNextSPID ecosystem) info ∧
      IdsOk (sps.putSP ecosystem info).2 := by
  obtain ⟨⟨hmain, hmain'⟩, htest, hused⟩ := hids
  unfold TEST_ECO_PROPERTY_1 at *
  rcases heco with rfl | rfl
  · obtain ⟨hentries, hspid, htspid⟩ := CMPSPInfo.putSP_main sps info
    rw [hspid] at hspace
    have hnone : sps.entries[sps.nextSpid]? = none := by
      rw [Option.eq_none_iff_forall_ne_some]
      intro old hold
      rcases hused _ old hold with h | h <;> lia
    refine ⟨by change 2 < sps.nextSpid; lia, hnone, hentries, ⟨?_, ?_, ?_⟩⟩
    · rw [hspid]; unfold TEST_ECO_PROPERTY_1; lia
    · rw [htspid]; exact htest
    · rw [hentries, hspid, htspid]
      intro p old hold
      unfold TEST_ECO_PROPERTY_1
      rcases getElem?_of_insert hold with ⟨rfl, -⟩ | ⟨-, hold⟩
      · lia
      · rcases hused p old hold with h | h <;> lia
  · obtain ⟨hentries, hspid, htspid⟩ := CMPSPInfo.putSP_test sps info
    change 0 < sps.nextTestSpid at hid
    have hnone : sps.entries[sps.nextTestSpid]? = none := by
      rw [Option.eq_none_iff_forall_ne_some]
      intro old hold
      rcases hused _ old hold with h | h <;> lia
    refine ⟨by change 2 < sps.nextTestSpid; lia, hnone, hentries, ⟨?_, ?_, ?_⟩⟩
    · rw [hspid]; exact ⟨hmain, hmain'⟩
    · rw [htspid]; unfold TEST_ECO_PROPERTY_1; lia
    · rw [hentries, hspid, htspid]
      intro p old hold
      unfold TEST_ECO_PROPERTY_1
      rcases getElem?_of_insert hold with ⟨rfl, -⟩ | ⟨-, hold⟩
      · lia
      · rcases hused p old hold with h | h <;> lia

end Create

theorem CrowdOk.congr {sps sps' : CMPSPInfo} {crowd : CMPCrowd} (h : CrowdOk sps crowd)
    (hentry : sps'.entries[crowd.propertyId]? = sps.entries[crowd.propertyId]?) :
    CrowdOk sps' crowd := by
  refine ⟨?_, h.nonneg, h.data⟩
  rw [hentry]
  exact h.entry

namespace Supply

variable {c : Ctx} {s s' : State}

theorem two_lt_of_entry (hs : Supply c s) {p : PropertyId} {info : Entry}
    (h : s.mySps.entries[p]? = some info) : 2 < p := by
  have hused := hs.ids.used p info h
  unfold TEST_ECO_PROPERTY_1 at hused
  lia

/-- **The reported total is the real one.**  `getTotalTokens` reads a number or adds up
balances; both are what is held and cached. -/
theorem getTotalTokens_eq (hs : Supply c s) (hrange : s.InRange) {p : PropertyId} {info : Entry}
    (hget : s.mySps.entries[p]? = some info) :
    s.getTotalTokens p = s.held p + s.getCachedAmount p := by
  have hp := hs.two_lt_of_entry hget
  have htotal := hs.total p hp
  have hbound := hs.bounded p hp
  have hsp : s.mySps.getSP p = some info := by
    rw [CMPSPInfo.getSP_of_ne (by lia)]
    exact hget
  unfold getTotalTokens
  rw [hsp]
  simp only
  by_cases hfixed : info.fixed = true
  · rw [issued_of_entry hget, issuedTokens_of_fixed hfixed] at htotal
    rw [if_pos hfixed, htotal]
  · rw [if_neg hfixed, toInt64_of_range]
    · have := hrange.held_nonneg p
      have := hs.cached p
      unfold MIN_INT_8_BYTES
      omega
    · omega

theorem fresh {ecosystem : Nat} {info : Entry} (hs : Supply c s)
    (heco : ecosystem = 1 ∨ ecosystem = 2) (hid : 0 < s.mySps.peekNextSPID ecosystem)
    (hspace : ¬s'.Overrun) (hsps : s'.mySps = (s.mySps.putSP ecosystem info).2) :
    2 < s.mySps.peekNextSPID ecosystem ∧
      s.mySps.entries[s.mySps.peekNextSPID ecosystem]? = none ∧
      s'.mySps.entries = s.mySps.entries.insert (s.mySps.peekNextSPID ecosystem) info ∧
      IdsOk s'.mySps ∧
      ∀ (a : Address) (crowd : CMPCrowd), s.myCrowds[a]? = some crowd →
        crowd.propertyId ≠ s.mySps.peekNextSPID ecosystem := by
  have hspace' : (s.mySps.putSP ecosystem info).2.nextSpid ≠ 0 ∧
      (s.mySps.putSP ecosystem info).2.nextSpid ≤ TEST_ECO_PROPERTY_1 := by
    unfold Overrun at hspace
    rw [hsps] at hspace
    lia
  obtain ⟨hp, hnone, hentries, hids⟩ := hs.ids.create heco hid hspace'
  rw [← hsps] at hentries hids
  refine ⟨hp, hnone, hentries, hids, ?_⟩
  intro a crowd hget heq
  obtain ⟨old, hentry, -⟩ := (hs.crowds a crowd hget).entry
  rw [heq, hnone] at hentry
  cases hentry

theorem create {ecosystem : Nat} {info : Entry} {n : Int} (hs : Supply c s)
    (heco : ecosystem = 1 ∨ ecosystem = 2) (hid : 0 < s.mySps.peekNextSPID ecosystem)
    (hspace : ¬s'.Overrun) (hsps : s'.mySps = (s.mySps.putSP ecosystem info).2)
    (hkind : info.manual = true → info.fixed = false)
    (hcrowds : ∀ (a : Address) (crowd : CMPCrowd), s'.myCrowds[a]? = some crowd →
      s.myCrowds[a]? = some crowd ∨ CrowdOk s'.mySps crowd)
    (hunique : CrowdsUnique s'.myCrowds)
    (hother : ∀ q, q ≠ s.mySps.peekNextSPID ecosystem →
      crowdOf s'.myCrowds q = crowdOf s.myCrowds q)
    (hissued : issuedTokens info (crowdOf s'.myCrowds (s.mySps.peekNextSPID ecosystem)) = n)
    (hheld : ∀ q, s'.held q = s.held q + if s.mySps.peekNextSPID ecosystem = q then n else 0)
    (hmax : n ≤ MAX_INT_8_BYTES) (hfees : s'.feecache = s.feecache)
    (hvested : s'.aux.exodusPrev = s.aux.exodusPrev) : Supply c s' := by
  obtain ⟨hp, hnone, hentries, hids, hnocrowd⟩ := hs.fresh heco hid hspace hsps
  have hzero := issued_of_none hnone
  refine hs.of_change (n := n) hp hids ?_ ?_ hunique hheld ?_ (by omega) hfees hvested
  · rw [hentries]
    intro q old hold
    rcases getElem?_of_insert hold with ⟨-, rfl⟩ | ⟨-, hold⟩
    · exact hkind
    · exact hs.kinds q old hold
  · intro a crowd hget
    rcases hcrowds a crowd hget with hold | hok
    · refine (hs.crowds a crowd hold).congr ?_
      rw [hentries, getElem?_insert_of_ne (Ne.symm (hnocrowd a crowd hold))]
    · exact hok
  · intro q
    by_cases hq : s.mySps.peekNextSPID ecosystem = q
    · subst hq
      rw [if_pos rfl, hzero, @issued_of_entry s' _ info (by rw [hentries]; simp), hissued,
        Int.zero_add]
    · rw [if_neg hq, Int.add_zero]
      refine issued_congr ?_ (hother q (Ne.symm hq))
      rw [hentries, getElem?_insert_of_ne hq]

theorem update {p : PropertyId} {info info' : Entry} {n : Int} (hs : Supply c s)
    (hp : p ≠ 1 ∧ p ≠ 2) (hget : s.mySps.getSP p = some info)
    (hsps : s'.mySps = (s.mySps.updateSP p info').2)
    (hkind : info'.fixed = info.fixed ∧ info'.manual = info.manual)
    (hcrowds : ∀ (a : Address) (crowd : CMPCrowd), s'.myCrowds[a]? = some crowd →
      s.myCrowds[a]? = some crowd ∧ (crowd.propertyId = p → info'.missedTokens = 0))
    (hunique : CrowdsUnique s'.myCrowds)
    (hother : ∀ q, q ≠ p → crowdOf s'.myCrowds q = crowdOf s.myCrowds q)
    (hissued : issuedTokens info' (crowdOf s'.myCrowds p) =
      issuedTokens info (crowdOf s.myCrowds p) + n)
    (hheld : ∀ q, s'.held q = s.held q + if p = q then n else 0)
    (hbound : s.issued p + n ≤ MAX_INT_8_BYTES) (hfees : s'.feecache = s.feecache)
    (hvested : s'.aux.exodusPrev = s.aux.exodusPrev) : Supply c s' := by
  rw [CMPSPInfo.getSP_of_ne hp] at hget
  obtain ⟨-, hentries, hspid, htspid⟩ := @CMPSPInfo.updateSP_of_ne s.mySps p hp info'
  rw [← hsps] at hentries hspid htspid
  refine hs.of_change (n := n) (hs.two_lt_of_entry hget) ?_ ?_ ?_ hunique hheld ?_ hbound hfees
    hvested
  · refine ⟨?_, ?_, ?_⟩
    · rw [hspid]; exact hs.ids.main
    · rw [htspid]; exact hs.ids.test
    · rw [hentries, hspid, htspid]
      intro q old hold
      rcases getElem?_of_insert hold with ⟨rfl, -⟩ | ⟨-, hold⟩
      · exact hs.ids.used p info hget
      · exact hs.ids.used q old hold
  · rw [hentries]
    intro q old hold
    rcases getElem?_of_insert hold with ⟨-, rfl⟩ | ⟨-, hold⟩
    · rw [hkind.1, hkind.2]
      exact hs.kinds p info hget
    · exact hs.kinds q old hold
  · intro a crowd hcrowd
    obtain ⟨hold, hmissed⟩ := hcrowds a crowd hcrowd
    have hok := hs.crowds a crowd hold
    by_cases hq : crowd.propertyId = p
    · obtain ⟨old, hentry, hfixed, hmanual, -⟩ := hok.entry
      rw [hq, hget] at hentry
      cases hentry
      refine ⟨⟨info', ?_, hkind.1.trans hfixed, hkind.2.trans hmanual, hmissed hq⟩, hok.nonneg,
        hok.data⟩
      rw [hentries, hq]
      simp
    · refine hok.congr ?_
      rw [hentries, getElem?_insert_of_ne (Ne.symm hq)]
  · intro q
    by_cases hq : p = q
    · subst hq
      rw [if_pos rfl, issued_of_entry hget, @issued_of_entry s' _ info' (by rw [hentries]; simp),
        hissued]
    · rw [if_neg hq, Int.add_zero]
      refine issued_congr ?_ (hother q (Ne.symm hq))
      rw [hentries, getElem?_insert_of_ne hq]

/-! ### Every step -/

theorem createFixed {ecosystem : Nat} {info : Entry} {a : Address} (hs : Supply c s)
    (heco : ecosystem = 1 ∨ ecosystem = 2) (hid : 0 < s.mySps.peekNextSPID ecosystem)
    (hfixed : info.fixed = true) (hmanual : info.manual = false) (hpos : 0 < info.numTokens)
    (hmax : info.numTokens ≤ MAX_INT_8_BYTES)
    (hspace : ¬((s.putNew ecosystem info).credit a (s.mySps.peekNextSPID ecosystem)
      info.numTokens).Overrun) :
    Supply c ((s.putNew ecosystem info).credit a (s.mySps.peekNextSPID ecosystem)
      info.numTokens) := by
  refine hs.create (n := info.numTokens) heco hid hspace rfl ?_ (fun a crowd h => .inl h) hs.unique
    (fun _ _ => rfl) (issuedTokens_of_fixed hfixed _) ?_ hmax rfl rfl
  · rw [hmanual]
    intro h
    cases h
  · intro q
    rw [held_credit _ _ _ _ (Int.le_of_lt hpos)]
    rfl

theorem createManaged {ecosystem : Nat} {info : Entry} (hs : Supply c s)
    (heco : ecosystem = 1 ∨ ecosystem = 2) (hid : 0 < s.mySps.peekNextSPID ecosystem)
    (hfixed : info.fixed = false) (hmanual : info.manual = true) (hdata : info.historicalData = ∅)
    (hspace : ¬(s.putNew ecosystem info).Overrun) : Supply c (s.putNew ecosystem info) := by
  refine hs.create (n := 0) heco hid hspace rfl (fun _ => hfixed) (fun a crowd h => .inl h)
    hs.unique (fun _ _ => rfl) ?_ ?_ (by decide) rfl rfl
  · rw [issuedTokens_of_manual hfixed hmanual, hdata]
    simp [grantedTokens]
  · intro q
    rw [ite_self, Int.add_zero]
    rfl

theorem createCrowdsale {ecosystem : Nat} {info : Entry} {a : Address} {crowd : CMPCrowd}
    (hs : Supply c s) (heco : ecosystem = 1 ∨ ecosystem = 2)
    (hid : 0 < s.mySps.peekNextSPID ecosystem) (hfixed : info.fixed = false)
    (hmanual : info.manual = false) (hmissed : info.missedTokens = 0)
    (hnone : s.myCrowds[a]? = none) (hproperty : crowd.propertyId = s.mySps.peekNextSPID ecosystem)
    (hcrowd : crowd.uCreated = 0 ∧ crowd.iCreated = 0 ∧ crowd.txFundraiserData = ∅)
    (hspace : ¬State.Overrun
      { s.putNew ecosystem info with myCrowds := s.myCrowds.insert a crowd }) :
    Supply c { s.putNew ecosystem info with myCrowds := s.myCrowds.insert a crowd } := by
  obtain ⟨-, -, hentries, -, hnocrowd⟩ := hs.fresh heco hid hspace rfl
  obtain ⟨huser, hissuer, hdata⟩ := hcrowd
  have hunique : CrowdsUnique (s.myCrowds.insert a crowd) := by
    refine hs.unique.insert fun b e hget => ?_
    rw [hproperty]
    exact hnocrowd b e hget
  refine hs.create (n := 0) heco hid hspace rfl ?_ ?_ hunique ?_ ?_ ?_ (by decide) rfl rfl
  · rw [hmanual]
    intro h
    cases h
  · intro b e hget
    rcases getElem?_of_insert hget with ⟨rfl, rfl⟩ | ⟨-, hold⟩
    · refine .inr ⟨⟨info, ?_, hfixed, hmanual, hmissed⟩, by omega, ?_⟩
      · rw [hentries, hproperty]
        simp
      · rw [huser, hissuer, hdata]
        simp [crowdsaleTokens]
    · exact .inl hold
  · intro q hq
    refine crowdOf_congr hs.unique hunique fun b e he => ?_
    constructor
    · intro hget
      rcases getElem?_of_insert hget with ⟨rfl, rfl⟩ | ⟨-, hold⟩
      · exact absurd (he.symm.trans hproperty) hq
      · exact hold
    · intro hget
      have hne : a ≠ b := by
        rintro rfl
        rw [hnone] at hget
        cases hget
      rw [getElem?_insert_of_ne hne]
      exact hget
  · have hactive := crowdOf_eq_some (a := a) hunique (by simp) hproperty
    rw [hactive, issuedTokens_of_active hfixed hmanual, huser, hissuer]
    rfl
  · intro q
    rw [ite_self, Int.add_zero]
    rfl

theorem recordManaged {p : PropertyId} {sp : Entry} {blockHash : Hash} {granted revoked : Int}
    (hs : Supply c s) (hp : p ≠ 1 ∧ p ≠ 2) (hget : s.mySps.getSP p = some sp)
    (hmanual : sp.manual = true) (hfresh : sp.historicalData[c.txid]? = none)
    (hsps : s'.mySps = (s.mySps.updateSP p { sp with
      historicalData := sp.historicalData.insertIfNew c.txid [granted, revoked]
      updateBlock := blockHash }).2)
    (hcrowds : s'.myCrowds = s.myCrowds)
    (hheld : ∀ q, s'.held q = s.held q + if p = q then granted - revoked else 0)
    (hbound : s.issued p + (granted - revoked) ≤ MAX_INT_8_BYTES)
    (hfees : s'.feecache = s.feecache) (hvested : s'.aux.exodusPrev = s.aux.exodusPrev) :
    Supply c s' := by
  have hentry := hget
  rw [CMPSPInfo.getSP_of_ne hp] at hentry
  have hfixed := hs.kinds p sp hentry hmanual
  refine hs.update hp hget hsps ⟨rfl, rfl⟩ ?_ ?_ ?_ ?_ hheld hbound hfees hvested
  · rw [hcrowds]
    intro a crowd hcrowd
    refine ⟨hcrowd, fun heq => ?_⟩
    -- a managed property has no crowdsale
    obtain ⟨old, hold, -, hnot, -⟩ := (hs.crowds a crowd hcrowd).entry
    rw [heq, hentry] at hold
    cases hold
    rw [hmanual] at hnot
    cases hnot
  · rw [hcrowds]
    exact hs.unique
  · rw [hcrowds]
    exact fun _ _ => rfl
  · have hinsert : sp.historicalData.insertIfNew c.txid [granted, revoked] =
        sp.historicalData.insert c.txid [granted, revoked] := insertIfNew_of_none hfresh
    rw [issuedTokens_of_manual (by exact hfixed) (by exact hmanual),
      issuedTokens_of_manual hfixed hmanual]
    simp only [grantedTokens, hinsert]
    rw [mapSum_insert_new hfresh]
    simp only [List.getD_cons_zero, List.getD_cons_succ]
    omega

theorem changeIssuer {p : PropertyId} {sp : Entry} {issuer : Address} {blockHash : Hash}
    (hs : Supply c s) (hp : p ≠ 1 ∧ p ≠ 2) (hget : s.mySps.getSP p = some sp) :
    Supply c (s.putEntry p { sp with issuer := issuer, updateBlock := blockHash }) := by
  have hentry := hget
  rw [CMPSPInfo.getSP_of_ne hp] at hentry
  refine hs.update (n := 0) hp hget rfl ⟨rfl, rfl⟩ ?_ hs.unique (fun _ _ => rfl) (by simp; rfl) ?_ ?_
    rfl rfl
  · intro a crowd hcrowd
    refine ⟨hcrowd, fun heq => ?_⟩
    obtain ⟨old, hold, -, -, hmissed⟩ := (hs.crowds a crowd hcrowd).entry
    rw [heq, hentry] at hold
    cases hold
    exact hmissed
  · intro q
    rw [ite_self, Int.add_zero]
    rfl
  · rw [Int.add_zero]
    exact hs.bounded p (hs.two_lt_of_entry hentry)

theorem issued_active (hs : Supply c s) {a : Address} {crowd : CMPCrowd}
    (hcrowd : s.myCrowds[a]? = some crowd) :
    s.issued crowd.propertyId = crowd.uCreated + crowd.iCreated := by
  obtain ⟨info, hentry, hfixed, hmanual, -⟩ := (hs.crowds a crowd hcrowd).entry
  rw [issued_of_entry hentry, crowdOf_eq_some hs.unique hcrowd rfl,
    issuedTokens_of_active hfixed hmanual]

theorem participate {receiver : Address} {crowd : CMPCrowd} {paid time forUser forIssuer : Int}
    (hs : Supply c s) (hrange : s.InRange) (hcrowd : s.myCrowds[receiver]? = some crowd)
    (huser : 0 ≤ forUser) (hissuer : 0 ≤ forIssuer)
    (hsupply : s.getTotalTokens crowd.propertyId + forUser + forIssuer ≤ MAX_INT_8_BYTES)
    (hfresh : crowd.txFundraiserData[c.txid]? = none) (hsps : s'.mySps = s.mySps)
    (hcrowds : s'.myCrowds = s.myCrowds.insert receiver
      (crowd.invest c.txid [paid, time, forUser, forIssuer] forUser forIssuer))
    (hheld : ∀ q, s'.held q =
      s.held q + if crowd.propertyId = q then forUser + forIssuer else 0)
    (hfees : s'.feecache = s.feecache) (hvested : s'.aux.exodusPrev = s.aux.exodusPrev) :
    Supply c s' := by
  have hok := hs.crowds receiver crowd hcrowd
  obtain ⟨info, hentry, hfixed, hmanual, hmissed⟩ := hok.entry
  have hp := hs.two_lt_of_entry hentry
  have hissued := hs.issued_active hcrowd
  have htotal := hs.total _ hp
  rw [hs.getTotalTokens_eq hrange hentry] at hsupply
  obtain ⟨hu, hi⟩ := hok.nonneg
  -- neither counter can overflow below the total
  have huCreated : toInt64 (crowd.uCreated + forUser) = crowd.uCreated + forUser :=
    toInt64_of_range (by unfold MIN_INT_8_BYTES; omega) (by omega)
  have hiCreated : toInt64 (crowd.iCreated + forIssuer) = crowd.iCreated + forIssuer :=
    toInt64_of_range (by unfold MIN_INT_8_BYTES; omega) (by omega)
  have hunique : CrowdsUnique (s.myCrowds.insert receiver (crowd.invest c.txid
      [paid, time, forUser, forIssuer] forUser forIssuer)) := hs.unique.replace hcrowd rfl
  rw [← hcrowds] at hunique
  refine hs.of_change (n := forUser + forIssuer) hp (by rw [hsps]; exact hs.ids)
    (by rw [hsps]; exact hs.kinds) ?_ hunique hheld ?_ (by omega) hfees hvested
  · rw [hsps, hcrowds]
    intro a e hget
    rcases getElem?_of_insert hget with ⟨rfl, rfl⟩ | ⟨-, hold⟩
    · refine ⟨⟨info, hentry, hfixed, hmanual, hmissed⟩, ?_, ?_⟩
      · simp only [CMPCrowd.invest, huCreated, hiCreated]
        omega
      · have hdata := hok.data
        simp only [CMPCrowd.invest, huCreated, hiCreated, insertIfNew_of_none hfresh]
        rw [crowdsaleTokens, mapSum_insert_new hfresh, ← crowdsaleTokens, ← hdata]
        simp only [List.getD_cons_zero, List.getD_cons_succ]
        omega
    · exact hs.crowds a e hold
  · intro q
    by_cases hq : crowd.propertyId = q
    · subst hq
      have hget : s'.myCrowds[receiver]? = some (crowd.invest c.txid
        [paid, time, forUser, forIssuer] forUser forIssuer) := by simp [hcrowds]
      rw [← hsps] at hentry
      have hnow : crowdOf s'.myCrowds crowd.propertyId = some (crowd.invest c.txid
        [paid, time, forUser, forIssuer] forUser forIssuer) := crowdOf_eq_some hunique hget rfl
      rw [if_pos rfl, hissued, issued_of_entry hentry, hnow, issuedTokens_of_active hfixed hmanual]
      simp only [CMPCrowd.invest, huCreated, hiCreated]
      omega
    · rw [if_neg hq, Int.add_zero]
      refine issued_congr (by rw [hsps]) (crowdOf_congr hs.unique hunique fun a e he => ?_)
      rw [hcrowds]
      by_cases ha : receiver = a
      · subst ha
        constructor
        · intro hget
          rcases getElem?_of_insert hget with ⟨-, rfl⟩ | ⟨hne, -⟩
          · exact absurd he hq
          · exact absurd rfl hne
        · intro hget
          rw [hcrowd] at hget
          cases hget
          exact absurd he hq
      · rw [getElem?_insert_of_ne ha]

theorem closeCrowdsale {a issuer : Address} {crowd : CMPCrowd} {sp sp' : Entry} {missed : Int}
    (hs : Supply c s) (hcrowd : s.myCrowds[a]? = some crowd)
    (hp : crowd.propertyId ≠ 1 ∧ crowd.propertyId ≠ 2)
    (hget : s.mySps.getSP crowd.propertyId = some sp)
    (hkind : sp'.fixed = sp.fixed ∧ sp'.manual = sp.manual)
    (hdata : sp'.historicalData = crowd.txFundraiserData)
    (hmissed : sp'.missedTokens = missed ∨ missed = 0 ∧ sp'.missedTokens = sp.missedTokens)
    (hnonneg : 0 ≤ missed)
    (hsupply : 0 < missed → crowd.uCreated + crowd.iCreated + missed ≤ MAX_INT_8_BYTES) :
    Supply c { (s.putEntry crowd.propertyId sp').credit issuer crowd.propertyId missed with
      myCrowds := s.myCrowds.erase a } := by
  have hok := hs.crowds a crowd hcrowd
  have hissued := hs.issued_active hcrowd
  obtain ⟨info, hentry, hfixed, hmanual, hzero⟩ := hok.entry
  have hinfo := hget
  rw [CMPSPInfo.getSP_of_ne hp, hentry] at hinfo
  cases hinfo
  have hmissed' : sp'.missedTokens = missed := by
    rcases hmissed with h | ⟨rfl, h⟩
    · exact h
    · exact h.trans hzero
  -- no other address runs a crowdsale for the property
  have hother : ∀ (b : Address) (e : CMPCrowd), (s.myCrowds.erase a)[b]? = some e →
      e.propertyId ≠ crowd.propertyId := by
    intro b e hb heq
    obtain ⟨hne, hold⟩ := getElem?_of_erase hb
    exact hne (hs.unique a b crowd e hcrowd hold heq.symm)
  have hbound := hs.bounded _ (hs.two_lt_of_entry hentry)
  refine hs.update (n := missed) hp hget rfl hkind ?_ hs.unique.erase ?_ ?_ ?_ ?_ rfl rfl
  · intro b e hb
    exact ⟨(getElem?_of_erase hb).2, fun heq => absurd heq (hother b e hb)⟩
  · intro q hq
    refine crowdOf_congr hs.unique hs.unique.erase fun b e he => ?_
    constructor
    · exact fun hb => (getElem?_of_erase hb).2
    · intro hb
      rw [getElem?_erase_of_ne]
      · exact hb
      · rintro rfl
        rw [hcrowd] at hb
        cases hb
        exact hq he.symm
  · change issuedTokens sp' (crowdOf (s.myCrowds.erase a) crowd.propertyId) = _
    rw [crowdOf_eq_none hother, crowdOf_eq_some hs.unique hcrowd rfl,
      issuedTokens_of_closed (hkind.1.trans hfixed) (hkind.2.trans hmanual),
      issuedTokens_of_active hfixed hmanual, hdata, hmissed', hok.data]
  · intro q
    change ((s.putEntry crowd.propertyId sp').credit issuer crowd.propertyId missed).held q = _
    rw [held_credit _ _ _ _ hnonneg]
    rfl
  · by_cases hpos : 0 < missed
    · have := hsupply hpos
      omega
    · omega

theorem trade {s₀ : State} {p q : PropertyId} {fee got paid : Int} {a b : Address}
    (hs : Supply c s) (htracks : c.Tracks s) (hfee : FeeStep c q fee s s₀)
    (hsps : s'.mySps = s₀.mySps) (hcrowds : s'.myCrowds = s₀.myCrowds)
    (hfees : s'.feecache = s₀.feecache) (hvested : s'.aux.exodusPrev = s₀.aux.exodusPrev)
    (hheld : ∀ r, s'.held r = (((s₀.move p paid b .BALANCE a .BALANCE).addTally a q (-got)
      .METADEX_RESERVE).addTally b q (got - fee) .BALANCE).held r) : Supply c s' := by
  have htotal : ∀ r, s'.held r + s'.getCachedAmount r = s.held r + s.getCachedAmount r := by
    intro r
    have h := hfee.total htracks r
    rw [hheld, getCachedAmount_congr hfees, held_addTally, held_addTally,
      held_move s₀ (by decide) (by decide)]
    by_cases hr : q = r
    · subst hr
      simp only [if_true] at h
      simp
      omega
    · simp only [hr, Ne.symm hr, if_false] at h ⊢
      simp
      omega
  refine hs.congr (hsps.trans hfee.mySps_eq) (hcrowds.trans hfee.myCrowds_eq) (fun r _ => htotal r)
    (fun r _ => Int.le_of_eq (htotal r)) (fun r => ?_) (hvested.trans hfee.vested) ?_
  · rw [getCachedAmount_congr hfees]
    exact hfee.cached htracks r
  · exact (hfee.ordered hs.ordered).congr hfees

theorem vest {n credited : Int} {a : Address} (hs : Supply c s) (hpos : 0 < n)
    (hreward : s.aux.exodusPrev + n ≤ ALL_REWARD) (hcredited : credited = n ∨ credited = 0) :
    Supply c { s.credit a OMNI_PROPERTY_MSC credited with
      aux.exodusPrev := s.aux.exodusPrev + n } := by
  have hheld : ∀ q, (s.credit a OMNI_PROPERTY_MSC credited).held q =
      s.held q + if OMNI_PROPERTY_MSC = q then credited else 0 := fun q =>
    held_credit s a _ q (by omega)
  refine ⟨hs.ids, hs.kinds, hs.crowds, hs.unique, ?_, hs.bounded, hs.cached, ?_, hreward,
    hs.ordered⟩
  · intro q hq
    have hne : OMNI_PROPERTY_MSC ≠ q := by unfold OMNI_PROPERTY_MSC; lia
    have h := hs.total q hq
    have hq := hheld q
    rw [if_neg hne, Int.add_zero] at hq
    exact (congrArg (· + s.getCachedAmount q) hq).trans h
  · intro q hq
    have h := hs.base q hq
    have hq := hheld q
    change (s.credit a OMNI_PROPERTY_MSC credited).held q + s.getCachedAmount q ≤
      BASE_SUPPLY + (s.aux.exodusPrev + n)
    split at hq <;> omega

/-- **Supply stays accounted for**, as long as the identifiers last. -/
theorem step (htracked : c.Tracked) (hrange : s.InRange) (hs : Supply c s) (h : Step c s s')
    (hspace : ¬s'.Overrun) : Supply c s' := by
  have htracks : c.Tracks s := by
    refine ⟨htracked, fun hover => ?_⟩
    have := hs.ids.main
    unfold Overrun at hover
    lia
  cases h with
  | aux _ _ hvested => exact hs.of_held rfl rfl rfl hvested fun _ => rfl
  | offerPut | offerErase | acceptGrow | acceptDrop =>
    exact hs.of_held rfl rfl rfl rfl fun _ => rfl
  | pending => exact hs.of_held rfl rfl rfl rfl fun p => by simp [held_addTally]
  | transfer | offerReserve | offerRelease | orderAdd | orderRemove | acceptOpen | acceptPay
  | acceptPaid =>
    exact hs.of_held rfl rfl rfl rfl fun p => held_move s (by decide) (by decide)
  | acceptEnd _ _ _ ht =>
    refine hs.of_held rfl rfl rfl rfl fun p => held_move s (by decide) ?_
    rcases ht with rfl | ⟨rfl, -⟩ <;> decide
  | @burn p _ _ hp hpos =>
    refine hs.congr rfl rfl (fun q hq => ?_) (fun q _ => ?_) hs.cached rfl hs.ordered
    · have hne : p ≠ q := by lia
      change State.held _ q + s.getCachedAmount q = _
      rw [held_addTally]
      simp [hne]
    · change State.held _ q + s.getCachedAmount q ≤ _
      rw [held_addTally]
      split <;> omega
  | @feePaid _ p n a _ hp _ _ _ hfee =>
    have htotal : ∀ q, s'.held q + s'.getCachedAmount q = s.held q + s.getCachedAmount q := by
      intro q
      have h := hfee.total htracks q
      rw [held_addTally] at h
      change _ = _ + s.getCachedAmount q + _ at h
      by_cases hq : p = q
      · subst hq
        simp at h
        omega
      · simp [hq, Ne.symm hq] at h
        omega
    exact hs.congr hfee.mySps_eq hfee.myCrowds_eq (fun q _ => htotal q)
      (fun q _ => Int.le_of_eq (htotal q)) (hfee.cached htracks) hfee.vested
      (hfee.ordered hs.ordered)
  | distribute _ hfee hzero =>
    rcases hzero with hzero | ⟨huntracked, -⟩
    · exact hs.fee htracks hfee hzero
    · exact absurd htracks huntracked
  | vest _ hpos hreward hcredited =>
    exact hs.vest hpos hreward (hcredited.imp And.left id)
  | orderFill hfee =>
    exact hs.trade htracks hfee rfl rfl rfl rfl fun _ => rfl
  | createFixed heco hid _ hfixed hmanual _ hpos hmax =>
    exact hs.createFixed heco hid hfixed hmanual hpos hmax hspace
  | createManaged heco hid _ hfixed hmanual hdata =>
    exact hs.createManaged heco hid hfixed hmanual hdata hspace
  | createCrowdsale heco hid _ hfixed hmanual hmissed _ hnone hproperty hcrowd =>
    exact hs.createCrowdsale heco hid hfixed hmanual hmissed hnone hproperty hcrowd hspace
  | @grant p _ n a _ hp hget hmanual hpos hsupply hfresh =>
    have hentry := hget
    rw [CMPSPInfo.getSP_of_ne hp] at hentry
    rw [hs.getTotalTokens_eq hrange hentry] at hsupply
    have htotal := hs.total p (hs.two_lt_of_entry hentry)
    refine hs.recordManaged hp hget hmanual (hfresh htracked) rfl rfl (fun q => ?_) (by omega) rfl
      rfl
    rw [held_credit _ _ _ _ (Int.le_of_lt hpos), Int.sub_zero]
    rfl
  | @revoke p _ n a _ hp hget hmanual hpos henough _ hfresh =>
    have hentry := hget
    rw [CMPSPInfo.getSP_of_ne hp] at hentry
    have hbound := hs.bounded p (hs.two_lt_of_entry hentry)
    refine hs.recordManaged hp hget hmanual (hfresh htracked) rfl rfl (fun q => ?_) (by omega) rfl
      rfl
    change (s.addTally a p (-n) .BALANCE).held q = _
    rw [held_addTally]
    simp
  | changeIssuer _ _ hp hget => exact hs.changeIssuer hp hget
  | participate hcrowd hget huser hissuer hsupply hfresh =>
    refine hs.participate hrange hcrowd huser hissuer (hsupply htracks) (hfresh htracked) rfl
      rfl (fun q => ?_) rfl rfl
    refine (held_credit _ _ _ q hissuer).trans ?_
    rw [held_credit _ _ _ _ huser]
    split <;> omega
  | closeCrowdsale hcrowd hp hget hkind hdata hmissed hnonneg hsupply =>
    exact hs.closeCrowdsale hcrowd hp hget hkind hdata hmissed hnonneg (hsupply htracks)

end Supply

end HcOmni
