import HcOmni.Lib.Numeral
import HcOmni.Runs.Payments

/-!
# The expiry of accepts

When a block is connected, every accept whose payment window has passed is finalized: its seller and
property are read back from its key, and what it still holds returns to the seller.  The loop visits
the accepts one after the other while it removes some of them, and reads the tokens of each from the map
that it changes.  Without separators in the addresses it does what it should.
-/

namespace HcOmni

open Std MapSum Program CMPTally State

variable {s s' t : State} {seller buyer : Address} {p : PropertyId} {blockNow : Int}

/-! ### Accepts with the parts of their keys -/

/-- An accept, and what its key is made of. -/
structure AcceptEntry where
  seller : Address
  buyer : Address
  property : PropertyId
  accept : CMPAccept

namespace AcceptEntry

variable (e : AcceptEntry)

def key : Str := acceptKey e.seller e.buyer e.property

/-- The payment window has passed. -/
def expired (blockNow : Int) : Bool :=
  decide (e.accept.blocktimelimit ≤ blockNow - e.accept.block)

/-- What an accept still holds returns to its offer, if that is still the offer of the seller, and
otherwise to the balance. -/
def returnsTo (s : State) : TallyType :=
  if (s.dexGetOffer e.seller e.property).map CMPOffer.txid = some e.accept.offerTxid then
    .SELLOFFER_RESERVE
  else .BALANCE

/-- How the end of the accept changes the amounts. -/
def movement (s : State) (a : Address) (q : PropertyId) (u : TallyType) : Int :=
  if e.seller = a ∧ e.property = q then
    (if u = .ACCEPT_RESERVE then -e.accept.acceptAmountRemaining else 0) +
      if u = e.returnsTo s then e.accept.acceptAmountRemaining else 0
  else 0

/-- The addresses can be told from the separators. -/
structure Clean : Prop where
  seller : CleanAddress e.seller
  buyer : CleanAddress e.buyer
  property : e.property < 2 ^ 32
  remaining : 0 ≤ e.accept.acceptAmountRemaining

theorem acceptReturnsTo_eq (s : State) :
    acceptReturnsTo (s.dexGetOffer e.seller e.property) e.accept = e.returnsTo s := by
  unfold acceptReturnsTo returnsTo
  cases s.dexGetOffer e.seller e.property with
  | none => rfl
  | some offer => simp only [Option.map_some, Option.some.injEq]

theorem returnsTo_cases (s : State) : e.returnsTo s = .SELLOFFER_RESERVE ∨ e.returnsTo s = .BALANCE := by
  unfold returnsTo
  split
  · exact .inl rfl
  · exact .inr rfl

variable {e}

theorem Clean.parseAcceptKey_key (h : e.Clean) :
    parseAcceptKey e.key = some (e.seller, e.property, e.buyer) := by
  have hdecimal : ∀ ch ∈ Text.decimal e.property, isKeySeparator ch = false := fun ch hmem => by
    by_contra hsep
    exact not_mem_decimal (by simpa using hsep) e.property hmem
  have hproperty := h.property
  unfold parseAcceptKey key acceptKey
  rw [Text.splitTokens_join (by decide) (by decide) h.seller hdecimal h.buyer
    (Text.decimal_ne_nil _)]
  simp only [Text.atoi_decimal, Option.some.injEq, Prod.mk.injEq, true_and, and_true]
  rw [Int.emod_eq_of_lt (Int.natCast_nonneg _) (by exact_mod_cast hproperty)]
  rfl

theorem movement_congr (hoffers : t.myOffers = s.myOffers) (a : Address) (q : PropertyId)
    (u : TallyType) : e.movement t a q u = e.movement s a q u := by
  unfold movement returnsTo dexGetOffer
  rw [hoffers]

end AcceptEntry

variable {e : AcceptEntry} {entries : List AcceptEntry}

/-! ### One accept -/

/-- The accept has been finalized: its tokens have returned, and it is gone. -/
structure Finalized (e : AcceptEntry) (s s' : State) : Prop where
  frame : s' = { s with mpTallyMap := s'.mpTallyMap, myAccepts := s'.myAccepts }
  accepts : s'.myAccepts = s.myAccepts.erase e.key
  money : ∀ a q u, s'.money a q u = s.money a q u + e.movement s a q u
  held : ∀ q, s'.held q = s.held q
  range : s.InRange → s'.InRange

theorem Finalized.of_move (hmove : s.CanMove e.property e.accept.acceptAmountRemaining e.seller
    .ACCEPT_RESERVE e.seller (e.returnsTo s)) :
    Finalized e s { s.move e.property e.accept.acceptAmountRemaining e.seller .ACCEPT_RESERVE e.seller
      (e.returnsTo s) with myAccepts := s.myAccepts.erase e.key } := by
  have hto : e.returnsTo s ≠ .PENDING := by
    rcases e.returnsTo_cases s with h | h <;> rw [h] <;> decide
  refine ⟨rfl, rfl, fun a q u => ?_, fun q => held_move s (by decide) hto, fun h => h.move hmove⟩
  refine (money_move s _ _ _ _ _ _ _ _ _).trans ?_
  unfold AcceptEntry.movement
  by_cases hsame : e.seller = a ∧ e.property = q
  · simp only [hsame, true_and, if_true, eq_comm, Int.add_assoc]
  · have hnot : ∀ v : TallyType, ¬(e.seller = a ∧ e.property = q ∧ v = u) := fun v h =>
      hsame ⟨h.1, h.2.1⟩
    rw [if_neg hsame, if_neg (hnot _), if_neg (hnot _), Int.add_zero]

theorem Finalized.of_empty (hempty : e.accept.acceptAmountRemaining = 0) :
    Finalized e s { s with myAccepts := s.myAccepts.erase e.key } := by
  refine ⟨rfl, rfl, fun a q u => ?_, fun _ => rfl, id⟩
  unfold AcceptEntry.movement
  rw [hempty]
  simp only [Int.neg_zero, ite_self, Int.add_zero]
  rfl

/-- The process ends, and that only if the promise was not kept. -/
abbrev Dies (promise : Prop) (halt : Halt) (_ : State) : Prop := ¬halt.Live ∧ ¬promise

variable {promise : Prop}

theorem wp_callRc_dies {Q : Int → State → Prop} {m : Op Int} (h : wp m Q (Dies promise) s) :
    wp (callRc m) Q (Dies promise) s := by
  refine wp_callRc_of (wp_mono h (fun _ _ hQ => hQ) fun halt s' hdies => ?_)
  cases halt with
  | ret rc => exact absurd trivial hdies.1
  | thrown | abort | crash | hang => exact hdies

theorem wp_move_dies {Q : Unit → State → Prop} {E : Halt → State → Prop} {a b : Address} {n : Int}
    {u v : TallyType} (hE : ∀ halt s', Dies promise halt s' → E halt s')
    (hu : u ≠ .PENDING ∧ u ≠ .BALANCE) (hv : v ≠ .PENDING) (hpos : 0 < n)
    (hpromise : promise → s.InRange ∧ s.CanMove p n a u b v)
    (h : s.CanMove p n a u b v → Q () (s.move p n a u b v)) :
    wp (assertUpdateTallyMap a p (-n) u)
      (fun _ s' => wp (assertUpdateTallyMap b p n v) Q E s') E s := by
  by_cases hkept : promise
  · obtain ⟨hrange, hmove⟩ := hpromise hkept
    exact wp_move_of_canMove (fun hbalance => absurd hbalance hu.2) hrange hv hmove (h hmove)
  · have hdead : ∀ halt s', Survives (fun _ => False) halt s' → E halt s' :=
      fun halt s' hdead => hE halt s' ⟨hdead, hkept⟩
    exact wp_mono (survives_move hu.1 hv hpos.le h) (fun _ _ hsecond =>
      wp_mono hsecond (fun _ _ hQ => hQ) hdead) hdead

theorem wp_eraseExpiredAccept (hclean : e.Clean) (hstored : s.myAccepts[e.key]? = some e.accept)
    (hpromise : promise → s.InRange ∧ s.held e.property ≤ MAX_INT_8_BYTES ∧
      e.accept.acceptAmountRemaining ≤ s.money e.seller e.property .ACCEPT_RESERVE) :
    wp (eraseExpiredAccept blockNow e.key e.accept)
      (fun _ s' => if e.expired blockNow = true then Finalized e s s' else s' = s) (Dies promise) s := by
  have hto : e.returnsTo s ≠ .PENDING := by
    rcases e.returnsTo_cases s with h | h <;> rw [h] <;> decide
  have hget : s.dexGetAccept e.seller e.property e.buyer = some e.accept := hstored
  unfold eraseExpiredAccept
  rw [wp_ite]
  refine ⟨fun hexpired => ?_, fun hopen => ?_⟩
  · have hexpired : e.expired blockNow = true := decide_eq_true hexpired
    rw [hclean.parseAcceptKey_key]
    simp only [hexpired, if_true]
    rw [wp_bind]
    refine wp_callRc_dies ?_
    unfold dexAcceptDestroy
    rw [wp_bind, wp_get, hget]
    simp only [e.acceptReturnsTo_eq s, wp_bind, wp_ite, wp_modify, wp_pure, Bool.false_eq_true, false_imp_iff,
      not_false_eq_true, true_imp_iff, true_and]
    refine ⟨fun hpos => ?_, fun hempty => .of_empty ?_⟩
    · refine wp_move_dies (fun _ _ h => h) (by decide) hto hpos (fun hkept => ?_) .of_move
      obtain ⟨hrange, hheld, henough⟩ := hpromise hkept
      exact ⟨hrange, hrange.canMove (by decide) hto hpos henough hheld⟩
    · have hremaining := hclean.remaining
      omega
  · have hopen : ¬e.expired blockNow = true := by
      simpa [AcceptEntry.expired] using hopen
    simp only [hopen]
    exact rfl

/-! ### All accepts -/

/-- The accepts of a state, in the order of the map. -/
structure AcceptList (entries : List AcceptEntry) (s : State) : Prop where
  stored : s.myAccepts.toList = entries.map fun e => (e.key, e.accept)
  clean : ∀ e ∈ entries, e.Clean

/-- What the accepts hold of a property of a seller. -/
def reserved (entries : List AcceptEntry) (a : Address) (q : PropertyId) : Int :=
  (entries.map fun e =>
    if e.seller = a ∧ e.property = q then e.accept.acceptAmountRemaining else 0).sum

/-- All amounts are in range, and the tokens of the accepts are there. -/
structure Backed (entries : List AcceptEntry) (s : State) : Prop where
  range : s.InRange
  held : ∀ q, s.held q ≤ MAX_INT_8_BYTES
  reserved : ∀ a q, reserved entries a q ≤ s.money a q .ACCEPT_RESERVE

/-- What the loop has done when it has visited the given accepts: exactly the expired ones are gone,
their tokens have returned, and nothing else has changed. -/
structure Expiry (entries : List AcceptEntry) (blockNow : Int) (s s' : State) : Prop where
  frame : s' = { s with mpTallyMap := s'.mpTallyMap, myAccepts := s'.myAccepts }
  accepts : ∀ key : Str, s'.myAccepts[key]? =
    if key ∈ (entries.filter (·.expired blockNow)).map AcceptEntry.key then none
    else s.myAccepts[key]?
  money : ∀ a q u, s'.money a q u =
    s.money a q u + ((entries.filter (·.expired blockNow)).map fun e => e.movement s a q u).sum

theorem Expiry.refl : Expiry [] blockNow s s :=
  ⟨rfl, fun _ => by simp, fun _ _ _ => by simp⟩

theorem Expiry.skip (h : Expiry entries blockNow s t) (hopen : ¬e.expired blockNow = true) :
    Expiry (entries ++ [e]) blockNow s t := by
  have hsame : (entries ++ [e]).filter (·.expired blockNow) = entries.filter (·.expired blockNow) := by
    simp [hopen]
  refine ⟨h.frame, ?_, ?_⟩
  · rw [hsame]
    exact h.accepts
  · rw [hsame]
    exact h.money

theorem Expiry.finalize (h : Expiry entries blockNow s t) (hexpired : e.expired blockNow = true)
    (hend : Finalized e t s') : Expiry (entries ++ [e]) blockNow s s' := by
  have hmore : (entries ++ [e]).filter (·.expired blockNow) =
      entries.filter (·.expired blockNow) ++ [e] := by simp [hexpired]
  have hoffers : t.myOffers = s.myOffers := by rw [h.frame]
  refine ⟨?_, fun key => ?_, fun a q u => ?_⟩
  · rw [hend.frame, h.frame]
  · rw [hend.accepts, ExtTreeMap.getElem?_erase, h.accepts, hmore]
    simp only [Std.compare_eq_iff_eq, List.map_append, List.map_cons, List.map_nil, List.mem_append,
      List.mem_singleton]
    by_cases hkey : e.key = key
    · simp [hkey]
    · have hkey' : ¬key = e.key := fun h => hkey h.symm
      simp only [hkey, hkey', or_false, if_false]
  · rw [hend.money, h.money, AcceptEntry.movement_congr hoffers, hmore, List.map_append, List.sum_append,
      List.map_singleton, List.sum_singleton, Int.add_assoc]

theorem Backed.skip (h : Backed (e :: entries) s) (hclean : e.Clean) : Backed entries s := by
  refine ⟨h.range, h.held, fun a q => ?_⟩
  have hle := h.reserved a q
  have hremaining := hclean.remaining
  rw [HcOmni.reserved, List.map_cons, List.sum_cons] at hle
  unfold HcOmni.reserved
  split at hle <;> omega

theorem Backed.finalize (h : Backed (e :: entries) s) (hend : Finalized e s s') :
    Backed entries s' := by
  refine ⟨hend.range h.range, fun q => by rw [hend.held]; exact h.held q, fun a q => ?_⟩
  have hle := h.reserved a q
  rw [HcOmni.reserved, List.map_cons, List.sum_cons] at hle
  rw [hend.money, AcceptEntry.movement]
  unfold HcOmni.reserved
  have hto : ¬TallyType.ACCEPT_RESERVE = e.returnsTo s := by
    rcases e.returnsTo_cases s with h | h <;> rw [h] <;> decide
  split at hle
  · rename_i hsame
    rw [if_pos hsame, if_pos rfl, if_neg hto]
    omega
  · rename_i hother
    rw [if_neg hother]
    omega

theorem Backed.head (h : Backed (e :: entries) s) (hclean : ∀ e' ∈ entries, e'.Clean) :
    e.accept.acceptAmountRemaining ≤ s.money e.seller e.property .ACCEPT_RESERVE := by
  have hle := h.reserved e.seller e.property
  have hrest : 0 ≤ HcOmni.reserved entries e.seller e.property := by
    refine List.sum_nonneg fun x hx => ?_
    obtain ⟨e', he', rfl⟩ := List.mem_map.mp hx
    split
    · exact (hclean e' he').remaining
    · exact le_rfl
  rw [HcOmni.reserved, List.map_cons, List.sum_cons, if_pos ⟨rfl, rfl⟩] at hle
  unfold HcOmni.reserved at hrest
  omega

theorem AcceptList.nodup (h : AcceptList entries s) : (entries.map AcceptEntry.key).Nodup := by
  have hkeys := nodup_keys_toList s.myAccepts
  rw [h.stored, List.map_map] at hkeys
  exact hkeys

theorem AcceptList.getElem? (h : AcceptList entries s) (he : e ∈ entries) :
    s.myAccepts[e.key]? = some e.accept := by
  refine (mem_toList (e := (e.key, e.accept))).mp ?_
  rw [h.stored]
  exact List.mem_map_of_mem (f := fun e : AcceptEntry => (e.key, e.accept)) he

/-- **The expiry of accepts.** -/
theorem wp_eraseExpiredAccepts (h : AcceptList entries s) :
    wp (eraseExpiredAccepts blockNow) (fun _ s' => Expiry entries blockNow s s')
      (Dies (Backed entries s)) s := by
  unfold eraseExpiredAccepts
  rw [wp_bind, wp_get, h.stored, List.forM_eq_forM, List.forM_map, ← List.forM_eq_forM]
  -- the accepts that have been visited, and those that have not
  refine wp_mono (wp_forM (I := fun rest t => ∃ visited, entries = visited ++ rest ∧
    Expiry visited blockNow s t ∧ (Backed entries s → Backed rest t))
    ⟨[], rfl, .refl, id⟩ ?_) ?_ fun _ _ hdies => hdies
  · rintro e rest t ⟨visited, hsplit, hdone, hbacked⟩
    have hmem : ∀ e' ∈ e :: rest, e' ∈ entries := fun e' he' => by
      rw [hsplit]
      exact List.mem_append_right _ he'
    have hclean := h.clean e (hmem e List.mem_cons_self)
    have hnew : e.key ∉ (visited.filter (·.expired blockNow)).map AcceptEntry.key := by
      intro hkey
      have hnodup := h.nodup
      rw [hsplit, List.map_append, List.nodup_append] at hnodup
      obtain ⟨e', he', hkey'⟩ := List.mem_map.mp hkey
      exact hnodup.2.2 e.key (hkey' ▸ List.mem_map_of_mem (List.mem_of_mem_filter he')) e.key
        (List.mem_map_of_mem List.mem_cons_self) rfl
    have hstored : t.myAccepts[e.key]? = some e.accept := by
      rw [hdone.accepts, if_neg hnew]
      exact h.getElem? (hmem e List.mem_cons_self)
    refine wp_mono (wp_eraseExpiredAccept hclean hstored fun hkept => ?_) (fun _ t' hround => ?_)
      fun _ _ hdies => hdies
    · have hb := hbacked hkept
      exact ⟨hb.range, hb.held _, hb.head fun e' he' => h.clean e' (hmem e' (List.mem_cons_of_mem _ he'))⟩
    · refine ⟨visited ++ [e], by rw [hsplit, List.append_assoc]; rfl, ?_⟩
      split at hround
      · rename_i hexpired
        exact ⟨hdone.finalize hexpired hround, fun hkept => (hbacked hkept).finalize hround⟩
      · rename_i hopen
        rw [hround]
        exact ⟨hdone.skip hopen, fun hkept => (hbacked hkept).skip hclean⟩
  · rintro _ t ⟨visited, hsplit, hdone, -⟩
    rw [List.append_nil] at hsplit
    rw [hsplit]
    exact hdone

end HcOmni
