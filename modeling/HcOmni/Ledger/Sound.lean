import HcOmni.Ledger.Accepts
import HcOmni.Ledger.Book
import HcOmni.Ledger.Supply

/-!
# The invariant of the engine

`Sound` collects what holds between any two steps of the engine.  Its first part holds in every
circumstance.  Supply is followed while the identifiers last, and the part that excludes failing
token movements is kept in strict circumstances only.

Beside it, the identifiers of transactions that have left a record in the state are followed,
since a second record under the same identifier would not be counted.
-/

namespace HcOmni

open Std MapSum Program CMPTally State

variable {c : Ctx} {s s' : State}

/-! ### The counter of the main ecosystem -/

theorem CMPSPInfo.nextSpid_updateSP (sps : CMPSPInfo) (p : PropertyId) (info : Entry) :
    (sps.updateSP p info).2.nextSpid = sps.nextSpid := by
  unfold updateSP
  split <;> rfl

theorem Step.nextSpid_cases (h : Step c s s') :
    s'.mySps.nextSpid = s.mySps.nextSpid ∨
      (0 < s.mySps.nextSpid ∧ s'.mySps.nextSpid = (s.mySps.nextSpid + 1) % 2 ^ 32 ∧
        (c.Strict → s.mySps.nextSpid < TEST_ECO_PROPERTY_1)) := by
  have hcreate : ∀ {ecosystem : Nat} {info : Entry}, ecosystem = 1 ∨ ecosystem = 2 →
      0 < s.mySps.peekNextSPID ecosystem →
      (c.Strict → s.mySps.nextSpid < TEST_ECO_PROPERTY_1) →
      (s.mySps.putSP ecosystem info).2.nextSpid = s.mySps.nextSpid ∨
        (0 < s.mySps.nextSpid ∧
          (s.mySps.putSP ecosystem info).2.nextSpid = (s.mySps.nextSpid + 1) % 2 ^ 32 ∧
          (c.Strict → s.mySps.nextSpid < TEST_ECO_PROPERTY_1)) := by
    intro ecosystem info heco hid hspace
    rcases heco with rfl | rfl
    · exact .inr ⟨hid, rfl, hspace⟩
    · exact .inl rfl
  cases h with
  | feePaid _ _ _ _ _ hfee => exact .inl (congrArg CMPSPInfo.nextSpid hfee.mySps_eq)
  | distribute _ hfee => exact .inl (congrArg CMPSPInfo.nextSpid hfee.mySps_eq)
  | orderFill hfee => exact .inl (congrArg CMPSPInfo.nextSpid hfee.mySps_eq)
  | createFixed heco hid hspace => exact hcreate heco hid hspace
  | createManaged heco hid hspace => exact hcreate heco hid hspace
  | createCrowdsale heco hid hspace => exact hcreate heco hid hspace
  | grant | revoke | changeIssuer | closeCrowdsale =>
    exact .inl (CMPSPInfo.nextSpid_updateSP _ _ _)
  | _ => exact .inl rfl

theorem Step.nextSpid_lt (h : Step c s s') (hs : s.mySps.nextSpid < 2 ^ 32) :
    s'.mySps.nextSpid < 2 ^ 32 := by
  rcases h.nextSpid_cases with heq | ⟨-, heq, -⟩ <;> lia

theorem Step.overrun (h : Step c s s') (hlt : s.mySps.nextSpid < 2 ^ 32) (hover : s.Overrun) :
    s'.Overrun := by
  unfold Overrun TEST_ECO_PROPERTY_1 at *
  rcases h.nextSpid_cases with heq | ⟨hpos, heq, -⟩ <;> lia

theorem Step.not_overrun (h : Step c s s') (hstrict : c.Strict) (hspace : ¬s.Overrun) :
    ¬s'.Overrun := by
  unfold Overrun at *
  rcases h.nextSpid_cases with heq | ⟨hpos, heq, hlt⟩
  · rwa [heq]
  · have := hlt hstrict
    unfold TEST_ECO_PROPERTY_1 at *
    lia

/-! ### Recorded transactions -/

/-- The transaction has left a record with a property or a crowdsale. -/
def State.TxUsed (s : State) (txid : Hash) : Prop :=
  (∃ (p : PropertyId) (info : Entry), s.mySps.entries[p]? = some info ∧ txid ∈ info.historicalData) ∨
    ∃ (a : Address) (crowd : CMPCrowd), s.myCrowds[a]? = some crowd ∧ txid ∈ crowd.txFundraiserData

theorem CMPSPInfo.entries_updateSP {sps : CMPSPInfo} {p q : PropertyId} {info info' : Entry}
    (h : (sps.updateSP p info).2.entries[q]? = some info') :
    info' = info ∨ sps.entries[q]? = some info' := by
  unfold updateSP at h
  split at h
  · exact .inr h
  · rcases getElem?_of_insert h with ⟨-, rfl⟩ | ⟨-, hold⟩
    · exact .inl rfl
    · exact .inr hold

theorem CMPSPInfo.entries_putSP {sps : CMPSPInfo} {ecosystem : Nat} {q : PropertyId}
    {info info' : Entry} (h : (sps.putSP ecosystem info).2.entries[q]? = some info') :
    info' = info ∨ sps.entries[q]? = some info' := by
  have hinsert : ∀ p : PropertyId, (sps.entries.insert p info)[q]? = some info' →
      info' = info ∨ sps.entries[q]? = some info' := by
    intro p hget
    rcases getElem?_of_insert hget with ⟨-, rfl⟩ | ⟨-, hold⟩
    · exact .inl rfl
    · exact .inr hold
  unfold putSP at h
  split at h
  · exact hinsert _ h
  · split at h <;> exact hinsert _ h

theorem CMPSPInfo.getSP_cases {sps : CMPSPInfo} {p : PropertyId} {info : Entry}
    (h : sps.getSP p = some info) :
    sps.entries[p]? = some info ∨ (info.historicalData = ∅ ∧ info.manual = false) := by
  unfold getSP at h
  split at h
  · cases h
    exact .inr ⟨rfl, rfl⟩
  · split at h
    · cases h
      exact .inr ⟨rfl, rfl⟩
    · exact .inl h

namespace State.TxUsed

variable {txid : Hash}

theorem of_entry {p : PropertyId} {info : Entry} (hget : s.mySps.getSP p = some info)
    (hmem : txid ∈ info.historicalData) : s.TxUsed txid := by
  rcases CMPSPInfo.getSP_cases hget with hentry | ⟨hempty, -⟩
  · exact .inl ⟨p, info, hentry, hmem⟩
  · simp [hempty] at hmem

theorem of_crowd {a : Address} {crowd : CMPCrowd} (hget : s.myCrowds[a]? = some crowd)
    (hmem : txid ∈ crowd.txFundraiserData) : s.TxUsed txid :=
  .inr ⟨a, crowd, hget, hmem⟩

theorem elim {P : Prop} (h : s'.TxUsed txid) (hold : s.TxUsed txid → P)
    (hentry : ∀ (p : PropertyId) (info : Entry), s'.mySps.entries[p]? = some info →
      txid ∈ info.historicalData → s.mySps.entries[p]? = some info ∨ P)
    (hcrowd : ∀ (a : Address) (crowd : CMPCrowd), s'.myCrowds[a]? = some crowd →
      txid ∈ crowd.txFundraiserData → s.myCrowds[a]? = some crowd ∨ P) : P := by
  rcases h with ⟨p, info, hget, hmem⟩ | ⟨a, crowd, hget, hmem⟩
  · exact (hentry p info hget hmem).elim (fun h => hold (.inl ⟨p, info, h, hmem⟩)) id
  · exact (hcrowd a crowd hget hmem).elim (fun h => hold (.inr ⟨a, crowd, h, hmem⟩)) id

theorem congr (h : s'.TxUsed txid) (hsps : s'.mySps.entries = s.mySps.entries)
    (hcrowds : s'.myCrowds = s.myCrowds) : s.TxUsed txid := by
  unfold TxUsed at *
  rwa [hsps, hcrowds] at h

end State.TxUsed

theorem mem_insertIfNew {data : ExtTreeMap Hash (List Int) compare} {txid txid' : Hash}
    {record : List Int} (h : txid ∈ data.insertIfNew txid' record) : txid = txid' ∨ txid ∈ data := by
  rw [ExtTreeMap.mem_insertIfNew, Std.compare_eq_iff_eq] at h
  exact h.imp_left Eq.symm

namespace Step

theorem txUsed_putNew {txid : Hash} {ecosystem : Nat} {info : Entry}
    (hdata : info.historicalData = ∅) {p : PropertyId} {info' : Entry}
    (hget : (s.mySps.putSP ecosystem info).2.entries[p]? = some info')
    (hmem : txid ∈ info'.historicalData) : s.mySps.entries[p]? = some info' := by
  rcases CMPSPInfo.entries_putSP hget with rfl | hold
  · simp [hdata] at hmem
  · exact hold

/-- **Records carry the identifier of the transaction that is executed.** -/
theorem txUsed {txid : Hash} (h : Step c s s') (hused : s'.TxUsed txid) :
    s.TxUsed txid ∨ txid = c.txid := by
  -- the records of a replaced entry
  have hreplaced : ∀ {p q : PropertyId} {sp info : Entry} {P : Prop},
      (txid ∈ sp.historicalData → P) → (s.mySps.updateSP p sp).2.entries[q]? = some info →
      txid ∈ info.historicalData → s.mySps.entries[q]? = some info ∨ P := by
    intro p q sp info P hsp hget hmem
    rcases CMPSPInfo.entries_updateSP hget with rfl | hold
    · exact .inr (hsp hmem)
    · exact .inl hold
  cases h with
  | feePaid _ _ _ _ _ hfee =>
    exact .inl (hused.congr (congrArg CMPSPInfo.entries hfee.mySps_eq) hfee.myCrowds_eq)
  | distribute _ hfee =>
    exact .inl (hused.congr (congrArg CMPSPInfo.entries hfee.mySps_eq) hfee.myCrowds_eq)
  | orderFill hfee =>
    exact .inl (hused.congr (congrArg CMPSPInfo.entries hfee.mySps_eq) hfee.myCrowds_eq)
  | createFixed _ _ _ _ _ hdata | createManaged _ _ _ _ _ hdata =>
    exact hused.elim .inl (fun _ _ hget hmem => .inl (txUsed_putNew hdata hget hmem))
      fun _ _ hget _ => .inl hget
  | createCrowdsale _ _ _ _ _ _ hdata _ _ hcrowd =>
    refine hused.elim .inl (fun _ _ hget hmem => .inl (txUsed_putNew hdata hget hmem)) ?_
    intro b e hget hmem
    rcases getElem?_of_insert hget with ⟨-, rfl⟩ | ⟨-, hold⟩
    · simp [hcrowd.2.2] at hmem
    · exact .inl hold
  | grant _ _ hget | revoke _ _ hget =>
    refine hused.elim .inl (fun _ _ => hreplaced fun hmem => ?_) fun _ _ hget _ => .inl hget
    exact (mem_insertIfNew hmem).symm.imp_left (TxUsed.of_entry hget)
  | changeIssuer _ _ _ hget =>
    refine hused.elim .inl (fun _ _ => hreplaced fun hmem => ?_) fun _ _ hget _ => .inl hget
    exact .inl (TxUsed.of_entry hget hmem)
  | participate hcrowd =>
    refine hused.elim .inl (fun _ _ hget _ => .inl hget) fun b e hget hmem => ?_
    rcases getElem?_of_insert hget with ⟨-, rfl⟩ | ⟨-, hold⟩
    · exact .inr ((mem_insertIfNew hmem).symm.imp_left (TxUsed.of_crowd hcrowd))
    · exact .inl hold
  | closeCrowdsale hcrowd _ _ _ hdata =>
    refine hused.elim .inl (fun _ _ => hreplaced fun hmem => ?_)
      fun _ _ hget _ => .inl (getElem?_of_erase hget).2
    rw [hdata] at hmem
    exact .inl (TxUsed.of_crowd hcrowd hmem)
  | _ => exact .inl (hused.congr rfl rfl)

end Step

/-! ### The invariant -/

/-- What excludes failing token movements, beside the supply. -/
structure StrictOk (s : State) : Prop where
  accepts : s.AcceptsOk
  reserved : ∀ a p, 0 ≤ s.acceptSlack a p
  cache : s.feecache = ∅
  space : ¬s.Overrun

theorem StrictOk.cached (h : StrictOk s) (p : PropertyId) : s.getCachedAmount p = 0 := by
  simp [getCachedAmount, h.cache]

structure Sound (c : Ctx) (s : State) : Prop where
  range : s.InRange
  frozen : ∀ a p, s.isAddressFrozen a p = true → p ≠ 1 ∧ p ≠ 2
  book : s.BookOk
  reserve : ∀ a p, 0 ≤ s.reserveSlack a p
  accepts : ∀ (key : Str) (accept : CMPAccept), s.myAccepts[key]? = some accept →
    0 < accept.acceptAmountRemaining
  spid : s.mySps.nextSpid < 2 ^ 32
  supply : c.Tracks s → Supply c s
  strict : c.Strict → StrictOk s

theorem Step.accepts_pos (h : Step c s s')
    (hs : ∀ (key : Str) (accept : CMPAccept), s.myAccepts[key]? = some accept →
      0 < accept.acceptAmountRemaining) (key : Str) (accept : CMPAccept)
    (hget : s'.myAccepts[key]? = some accept) : 0 < accept.acceptAmountRemaining := by
  have hinsert : ∀ {key' : Str} {new : CMPAccept},
      (s.myAccepts.insert key' new)[key]? = some accept → 0 < new.acceptAmountRemaining →
      0 < accept.acceptAmountRemaining := by
    intro key' new hget hpos
    rcases getElem?_of_insert hget with ⟨-, rfl⟩ | ⟨-, hold⟩
    · exact hpos
    · exact hs key accept hold
  cases h with
  | feePaid _ _ _ _ _ hfee => exact hs key accept (hfee.myAccepts_eq ▸ hget)
  | distribute _ hfee => exact hs key accept (hfee.myAccepts_eq ▸ hget)
  | orderFill hfee => exact hs key accept (hfee.myAccepts_eq ▸ hget)
  | acceptOpen _ _ _ hmove => exact hinsert hget hmove.pos
  | acceptPay _ hpart => exact hinsert hget (Int.sub_pos_of_lt hpart)
  | acceptGrow _ hold hneg =>
    have hpos := hs _ _ hold
    exact hinsert hget (by simp only; omega)
  | acceptPaid | acceptEnd | acceptDrop => exact hs key accept (getElem?_of_erase hget).2
  | _ => exact hs key accept hget

theorem Step.feecache_eq (h : Step c s s') (hstrict : c.Strict) : s'.feecache = s.feecache := by
  cases h with
  | feePaid hloose => exact absurd hstrict hloose
  | distribute hloose => exact absurd hstrict hloose
  | orderFill _ hfeeless =>
    obtain ⟨rfl, -⟩ := hfeeless hstrict
    rfl
  | _ => rfl

namespace Sound

theorem tracks_of_strict (hs : Sound c s) (hstrict : c.Strict) : c.Tracks s :=
  ⟨c.tracked_of_strict hstrict, (hs.strict hstrict).space⟩

/-- **Every step keeps the invariant.** -/
theorem step (hs : Sound c s) (h : Step c s s') : Sound c s' where
  range := hs.range.step h
  frozen := by
    unfold State.isAddressFrozen
    rw [h.setFrozenAddresses_eq]
    exact hs.frozen
  book := hs.book.step h
  reserve a p := by
    rw [h.reserveSlack_eq]
    exact hs.reserve a p
  accepts := h.accepts_pos hs.accepts
  spid := h.nextSpid_lt hs.spid
  supply htracks := by
    have hbefore : ¬s.Overrun := fun hover => htracks.2 (h.overrun hs.spid hover)
    exact (hs.supply ⟨htracks.1, hbefore⟩).step htracks.1 hs.range h htracks.2
  strict hstrict := by
    have hok := hs.strict hstrict
    have hclean := c.clean_of_strict hstrict
    refine ⟨hok.accepts.step hclean h, fun a p => ?_, (h.feecache_eq hstrict).trans hok.cache,
      h.not_overrun hstrict hok.space⟩
    rw [h.acceptSlack_eq hclean (c.fits_of_strict hstrict) hok.accepts]
    exact hok.reserved a p

theorem steps (hs : Sound c s) (h : Relation.ReflTransGen (Step c) s s') : Sound c s' := by
  induction h with
  | refl => exact hs
  | tail _ hstep ih => exact ih.step hstep

/-! ### Room for movements -/

/-- All tokens of a property fit `int64_t`. -/
theorem held_le (hs : Sound c s) (htracks : c.Tracks s) (p : PropertyId) :
    s.held p + s.getCachedAmount p ≤ MAX_INT_8_BYTES := by
  have hsupply := hs.supply htracks
  by_cases hp : 2 < p
  · rw [hsupply.total p hp]
    exact hsupply.bounded p hp
  · have hbase := hsupply.base p (by lia)
    have hreward := hsupply.reward
    unfold BASE_SUPPLY at hbase
    unfold ALL_REWARD at hreward
    unfold MAX_INT_8_BYTES
    omega

theorem canMove (hs : Sound c s) (hstrict : c.Strict) {p : PropertyId} {n : Int} {a b : Address}
    {t u : TallyType} (ht : t ≠ .PENDING) (hu : u ≠ .PENDING) (hpos : 0 < n)
    (henough : n ≤ s.money a p t) : s.CanMove p n a t b u := by
  have hheld := hs.held_le (hs.tracks_of_strict hstrict) p
  rw [(hs.strict hstrict).cached, Int.add_zero] at hheld
  exact hs.range.canMove ht hu hpos henough hheld

theorem remaining_le_reserve (hs : Sound c s) {prop : PropertyId} {price : ℚ} {key : OrderKey}
    {order : CMPMetaDEx} (hstored : (s.mdSet prop price)[key]? = some order) :
    order.amountRemaining ≤ s.money order.addr order.property .METADEX_RESERVE := by
  have hslack := hs.reserve order.addr order.property
  have hbook := hs.book.weight_le_bookSum hstored order.addr order.property
  unfold reserveSlack at hslack
  rw [orderWeight, if_pos ⟨rfl, rfl⟩] at hbook
  omega

theorem remaining_le_accept (hs : Sound c s) (hstrict : c.Strict) {seller buyer : Address}
    {p : PropertyId} {accept : CMPAccept} (hget : s.dexGetAccept seller p buyer = some accept) :
    accept.acceptAmountRemaining ≤ s.money seller p .ACCEPT_RESERVE := by
  have hok := hs.strict hstrict
  have hle := hok.accepts.remaining_le_acceptSum hget
  have hslack := hok.reserved seller p
  unfold acceptSlack at hslack
  omega

end Sound

end HcOmni
