import HcOmni.Matching.Refinement
import HcOmni.Runs.Kept

/-!
# Price, time and amounts of the matching

What the plan of the matching means for the orders of the book: who is served first and until when,
what every visit does, and what an order costs that is bought as a whole.
-/

namespace HcOmni

open MapSum Program State Rounding

variable {env : Env} {s s' : State} {pnew order : CMPMetaDEx} {visit : Visit} {visits : List Visit}

/-! ### What following a plan does to the book -/

/-- Where the book keeps an order. -/
abbrev CMPMetaDEx.place (order : CMPMetaDEx) : PropertyId × ℚ × OrderKey :=
  (order.property, order.unitPrice, order.key)

/-- What the book keeps of an order after a visit. -/
def Visit.kept (visit : Visit) : Option CMPMetaDEx :=
  if visit.got < visit.order.amountRemaining then
    some { visit.order with amountRemaining := visit.order.amountRemaining - visit.got }
  else none

theorem Precedes.place_ne {other : CMPMetaDEx} (h : Precedes order other) :
    order.place ≠ other.place := by
  intro heq
  simp only [CMPMetaDEx.place, Prod.mk.injEq, CMPMetaDEx.key, EmbeddingLike.apply_eq_iff_eq] at heq
  obtain ⟨-, hprice, hblock, hidx⟩ := heq
  rcases h with hlt | ⟨-, hlt | ⟨-, hlt⟩⟩
  · exact absurd hprice (ne_of_lt hlt)
  · exact absurd hblock (ne_of_lt hlt)
  · exact absurd hidx (ne_of_lt hlt)

theorem orderAt_congr (h : s'.metadex = s.metadex) (place : PropertyId × ℚ × OrderKey) :
    s'.orderAt place = s.orderAt place := by
  unfold orderAt mdSet
  rw [h]

/-- The trading fee of a match. -/
def tradeFee (params : ConsensusParams) (pnew pold : CMPMetaDEx) (got : Int) : Int :=
  if params.isFeatureActivated FEATURE_FEES pnew.block = true ∧
      pold.property > OMNI_PROPERTY_TMSC ∧ pold.desiredProperty > OMNI_PROPERTY_TMSC then
    got.tdiv 2000
  else 0

/-- What is recorded of a match. -/
def fillRecord (params : ConsensusParams) (pnew pold : CMPMetaDEx) (got paid : Int) : DbRecord :=
  .matchedTrade pold.txid pnew.txid pold.addr pnew.addr pold.desiredProperty pnew.desiredProperty paid
    (got - tradeFee params pnew pold got) pnew.block (tradeFee params pnew pold got)

def Visit.record? (params : ConsensusParams) (pnew : CMPMetaDEx) (visit : Visit) : Option DbRecord :=
  visit.fill.map fun fill => fillRecord params pnew visit.order fill.1 fill.2

/-- The book, the matches and the parameters are the same. -/
structure SameBook (s s' : State) : Prop where
  book : s'.metadex = s.metadex
  trades : s'.trades = s.trades
  params : s'.aux.params = s.aux.params

theorem SameBook.refl : SameBook s s := ⟨rfl, rfl, rfl⟩

theorem SameBook.agree {t : State} {W : List Part} (h : SameBook s t)
    (hagree : stateParts.Agree W t s') (hapart : Apart W [.book, .trades, .params]) :
    SameBook s s' :=
  ⟨(hagree .book (hapart _ (by decide))).trans h.book,
    (hagree .trades (hapart _ (by decide))).trans h.trades,
    (hagree .params (hapart _ (by decide))).trans h.params⟩

theorem wp_aside {α β : Type} {W : List Part} {m : Op α} {f : α → Op β} {P : α → Prop}
    {Q : β → State → Prop} {E : Halt → State → Prop} {t : State}
    (hm : wp m (fun a t' => stateParts.Agree W t t' ∧ P a) (fun _ t' => stateParts.Agree W t t') t)
    (hapart : Apart W [.book, .trades, .params]) (hsame : SameBook s t)
    (herror : ∀ e t', SameBook s t' → E e t')
    (hf : ∀ a t', P a → SameBook s t' → wp (f a) Q E t') : wp (m >>= f) Q E t := by
  rw [wp_bind]
  refine wp_mono hm (fun a t' h => ?_) fun e t' hagree => herror e t' (hsame.agree hagree hapart)
  exact hf a t' h.2 (hsame.agree h.1 hapart)

theorem wp_assertUpdateTallyMap_aside {β : Type} {a : Address} {p : PropertyId} {n : Int}
    {ttype : TallyType} {f : Unit → Op β} {Q : β → State → Prop} {E : Halt → State → Prop} {t : State}
    (hsame : SameBook s t) (herror : ∀ e t', SameBook s t' → E e t')
    (hf : ∀ t', SameBook s t' → wp (f ()) Q E t') :
    wp (assertUpdateTallyMap a p n ttype >>= f) Q E t := by
  refine wp_aside (W := [.tally ttype]) (P := fun _ => True)
    (wp_mono touches_assertUpdateTallyMap (fun _ _ h => ⟨h, trivial⟩) fun _ _ h => h) ?_ hsame herror
    fun _ t' _ h => hf t' h
  intro part hpart htally
  cases List.mem_singleton.mp htally
  simp at hpart

theorem wp_tradingFeeOf_value {got : Int} :
    wp (tradingFeeOf env pnew order got) (fun fee s' =>
      stateParts.Agree [.tally .BALANCE, .cache] s s' ∧ fee = tradeFee s.aux.params pnew order got)
      (fun _ s' => stateParts.Agree [.tally .BALANCE, .cache] s s') s := by
  refine wp_mono (wp_and touches_tradingFeeOf (?_ : wp _ (fun fee _ =>
    fee = tradeFee s.aux.params pnew order got) (fun _ _ => True) s)) (fun _ _ h => h) fun _ _ h => h.1
  unfold tradingFeeOf tradeFee
  rw [wp_bind, wp_get]
  split
  · rw [wp_bind]
    exact wp_mono touches_addFee (fun _ _ _ => rfl) fun _ _ _ => trivial
  · rfl

/-- What visits have done: they leave of each order what was not bought, record what was, and do not
touch any other order. -/
structure Matched (pnew : CMPMetaDEx) (visits : List Visit) (s s' : State) : Prop where
  visited : ∀ visit ∈ visits, s'.orderAt visit.order.place = visit.kept
  other : ∀ place, place ∉ visits.map (fun visit => visit.order.place) →
    s'.orderAt place = s.orderAt place
  trades : s'.trades = s.trades ++ visits.filterMap (Visit.record? s.aux.params pnew)
  params : s'.aux.params = s.aux.params

theorem SameBook.matched (h : SameBook s s') : Matched pnew [] s s' :=
  ⟨fun _ hvisit => (by cases hvisit), fun place _ => orderAt_congr h.book place,
    h.trades.trans (List.append_nil _).symm, h.params⟩

theorem Matched.cons {first : Visit} {rest : List Visit} {t : State} (h : Matched pnew [first] s t)
    (hrest : Matched pnew rest t s')
    (hne : ∀ visit ∈ rest, visit.order.place ≠ first.order.place) :
    Matched pnew (first :: rest) s s' := by
  have hfirst : first.order.place ∉ rest.map (fun visit => visit.order.place) := by
    intro hmem
    obtain ⟨later, hlater, heq⟩ := List.mem_map.mp hmem
    exact hne later hlater heq
  refine ⟨fun visit hvisit => ?_, fun place hplace => ?_, ?_, hrest.params.trans h.params⟩
  · rcases List.mem_cons.mp hvisit with rfl | hvisit
    · rw [hrest.other _ hfirst]
      exact h.visited _ List.mem_cons_self
    · exact hrest.visited visit hvisit
  · rw [List.map_cons, List.mem_cons, not_or] at hplace
    rw [hrest.other place hplace.2]
    exact h.other place fun hmem => hplace.1 (List.mem_singleton.mp hmem)
  · rw [hrest.trades, h.trades, h.params, List.append_assoc, ← List.filterMap_append]
    rfl

theorem wp_settle {got paid : Int} :
    wp (settle env pnew order got paid) (fun _ s' =>
      Matched pnew [⟨order, 0, some (got, paid)⟩] s s') (fun _ s' => SameBook s s') s := by
  have herror : ∀ (e : Halt) (t : State), SameBook s t → SameBook s t := fun _ _ h => h
  unfold settle
  refine wp_aside wp_tradingFeeOf_value (by decide) .refl herror fun fee t hfee h => ?_
  refine wp_assertUpdateTallyMap_aside h herror fun t h => ?_
  refine wp_assertUpdateTallyMap_aside h herror fun t h => ?_
  refine wp_assertUpdateTallyMap_aside h herror fun t h => ?_
  refine wp_assertUpdateTallyMap_aside h herror fun t h => ?_
  rw [wp_bind, wp_record, wp_modify]
  refine ⟨fun visit hvisit => ?_, fun place hplace => ?_, ?_, h.params⟩
  · cases List.mem_singleton.mp hvisit
    refine orderAt_replaceOrder_same.trans ?_
    simp only [Int.sub_pos]
    rfl
  · refine (orderAt_replaceOrder_of_ne fun heq => hplace (by simp [heq])).trans ?_
    exact orderAt_congr h.book place
  · change List.filter _ (_ ++ _) = _
    rw [List.filter_append, hfee, ← h.trades]
    rfl

theorem wp_settleVisit (hstored : s.orderAt visit.order.place = some visit.order)
    (hstanding : Standing visit.order) :
    wp (settleVisit env pnew visit) (fun _ s' => Matched pnew [visit] s s')
      (fun _ s' => SameBook s s') s := by
  unfold settleVisit
  cases hfill : visit.fill with
  | none =>
    refine ⟨fun other hother => ?_, fun _ _ => rfl, ?_, rfl⟩
    · cases List.mem_singleton.mp hother
      simp [Visit.kept, Visit.got, hfill, hstored, hstanding.remaining_pos]
    · simp [Visit.record?, hfill]
  | some fill =>
    refine wp_mono wp_settle ?_ fun _ _ h => h
    rintro _ s' ⟨hvisited, hother, htrades, hparams⟩
    refine ⟨fun other hmem => ?_, hother, ?_, hparams⟩
    · cases List.mem_singleton.mp hmem
      rw [hvisited _ List.mem_cons_self]
      simp [Visit.kept, Visit.got, hfill]
    · rw [htrades]
      simp [Visit.record?, hfill]

theorem wp_forM_settleVisit (hsorted : (visits.map Visit.order).Pairwise Precedes)
    (hstored : ∀ visit ∈ visits, s.orderAt visit.order.place = some visit.order)
    (hstanding : ∀ visit ∈ visits, Standing visit.order) :
    wp (visits.forM (settleVisit env pnew)) (fun _ s' => Matched pnew visits s s')
      (fun _ s' => ∃ done, done <+: visits ∧ Matched pnew done s s') s := by
  induction visits generalizing s with
  | nil => exact SameBook.refl.matched
  | cons first rest ih =>
    obtain ⟨hfirst, hrest⟩ := List.pairwise_cons.mp hsorted
    -- the places of later orders are others
    have hne : ∀ visit ∈ rest, visit.order.place ≠ first.order.place := fun visit hvisit =>
      (hfirst _ (List.mem_map_of_mem hvisit)).place_ne.symm
    change wp (settleVisit env pnew first >>= fun _ => rest.forM (settleVisit env pnew)) _ _ s
    rw [wp_bind]
    refine wp_mono (wp_settleVisit (hstored first List.mem_cons_self)
      (hstanding first List.mem_cons_self)) ?_ fun _ _ h => ⟨[], List.nil_prefix, h.matched⟩
    intro _ s₁ hmatched
    refine wp_mono (ih hrest (fun visit hvisit => ?_)
      fun visit hvisit => hstanding visit (List.mem_cons_of_mem first hvisit)) ?_ ?_
    · rw [hmatched.other _ fun hmem => hne visit hvisit (List.mem_singleton.mp hmem)]
      exact hstored visit (List.mem_cons_of_mem first hvisit)
    · exact fun _ s₂ hafter => hmatched.cons hafter hne
    · rintro _ s₂ ⟨done, hdone, hafter⟩
      refine ⟨first :: done, List.prefix_cons_inj _ |>.mpr hdone, hmatched.cons hafter ?_⟩
      exact fun visit hvisit => hne visit (hdone.subset hvisit)

/-! ### The visits of a new order -/

theorem stored_of_mem_visitsOf (hbook : s.BookOk) (hvisit : visit ∈ visitsOf s pnew) :
    s.orderAt visit.order.place = some visit.order ∧ Matches pnew visit.order :=
  (mem_candidates hbook).mp ((plan_orders _ _ _).subset (List.mem_map_of_mem hvisit))

theorem standing_of_mem_candidates (hbook : s.BookOk) :
    ∀ order ∈ candidates s pnew, Standing order := by
  intro order horder
  exact (hbook _ _ _ _ ((mem_candidates hbook).mp horder).1).standing

theorem visitsOf_sorted (hbook : s.BookOk) :
    ((visitsOf s pnew).map Visit.order).Pairwise Precedes :=
  (candidates_sorted hbook).sublist (plan_orders _ _ _).sublist

theorem mem_candidates_of_stored (hbook : s.BookOk) {place : PropertyId × ℚ × OrderKey}
    (hstored : s.orderAt place = some order) (hmatch : Matches pnew order) :
    order ∈ candidates s pnew := by
  have hok := hbook _ _ _ _ hstored
  refine (mem_candidates hbook).mpr ⟨?_, hmatch⟩
  rw [hok.property_eq, hok.price_eq, hok.key_eq]
  exact hstored

theorem not_visited_of_not_matches (hbook : s.BookOk) {place : PropertyId × ℚ × OrderKey}
    (hstored : s.orderAt place = some order) (hmatch : ¬Matches pnew order) :
    place ∉ (visitsOf s pnew).map (fun visit => visit.order.place) := by
  intro hmem
  obtain ⟨visit, hvisit, rfl⟩ := List.mem_map.mp hmem
  obtain ⟨hvisited, hmatches⟩ := stored_of_mem_visitsOf hbook hvisit
  rw [hstored] at hvisited
  rw [Option.some.inj hvisited] at hmatch
  exact hmatch hmatches

theorem visit_of_mem_visitsOf (hbook : s.BookOk) (hnew : Standing pnew)
    (hvisit : visit ∈ visitsOf s pnew) :
    Standing visit.order ∧ 0 < visit.offered ∧ visit.offered ≤ pnew.amountRemaining ∧
      visit.fill = fillOf pnew.inversePrice visit.offered visit.order :=
  plan_visit (standing_of_mem_candidates hbook) (Int.le_of_lt hnew.remaining_pos) hvisit

/-- **What the matching does to the book**; after an error, what it has done before. -/
theorem wp_xTrade_book (hbook : s.BookOk) (hnew : Standing pnew) (hsides : Sided s pnew) :
    wp (xTrade env pnew) (fun traded s' =>
      traded = { pnew with
        amountRemaining := unspent pnew.amountRemaining (visitsOf s pnew) } ∧
      Matched pnew (visitsOf s pnew) s s')
      (fun _ s' => ∃ done, done <+: visitsOf s pnew ∧ Matched pnew done s s') s := by
  unfold wp
  rw [xTrade_eq hbook hnew hsides]
  change wp (follow env pnew (visitsOf s pnew)) _ _ s
  unfold follow
  rw [wp_bind]
  refine wp_mono (wp_forM_settleVisit (visitsOf_sorted hbook)
    (fun visit hvisit => (stored_of_mem_visitsOf hbook hvisit).1)
    fun visit hvisit => (visit_of_mem_visitsOf hbook hnew hvisit).1) ?_ fun _ _ h => h
  intro _ s' hs'
  exact ⟨rfl, hs'⟩

/-! ### Price-time priority -/

/-- The price of one token after the amounts were rounded, for someone who offers `offered`. -/
def roundedPrice (offered : Int) (order : CMPMetaDEx) : ℚ :=
  let could := min (offered * order.amountForsale / order.amountDesired) order.amountRemaining
  (cost order.unitPrice could : ℚ) / could

/-- What may happen to an order that is visited: it is filled; nothing is traded, because not even
one token can be bought or because of the rounding; or as much as possible is bought, and what is
left is not enough for another token. -/
inductive Visit.Outcome (limit : ℚ) (visit : Visit) : Prop where
  | filled (hgot : visit.got = visit.order.amountRemaining)
  | untouched (hfill : visit.fill = none)
      (hwhy : visit.offered * visit.order.amountForsale / visit.order.amountDesired = 0 ∨
        limit < roundedPrice visit.offered visit.order)
  | partly (hgot : visit.got =
        visit.offered * visit.order.amountForsale / visit.order.amountDesired)
      (hpos : 0 < visit.got) (hpart : visit.got < visit.order.amountRemaining)
      (hleft : (visit.offered - visit.paid) * visit.order.amountForsale /
        visit.order.amountDesired = 0)

theorem outcome_of_fill {limit : ℚ} (hstanding : Standing visit.order) (hoffered : 0 < visit.offered)
    (hfill : visit.fill = fillOf limit visit.offered visit.order) : visit.Outcome limit := by
  cases hplan : fillOf limit visit.offered visit.order with
  | none =>
    have hwhy := hstanding.fillOf_eq_none hplan
    rw [hstanding.affordable_eq] at hwhy
    exact .untouched (hfill.trans hplan) hwhy
  | some fill =>
    obtain ⟨got, paid⟩ := fill
    obtain ⟨hpos, hle, -, -, -, hpaid, -⟩ := hstanding.fillOf_eq_some hoffered hplan
    have hgot : visit.got = got := by simp [Visit.got, hfill, hplan]
    have hpaid' : visit.paid = paid := by simp [Visit.paid, hfill, hplan]
    have hmin : got = min (affordable visit.order.unitPrice visit.offered)
        visit.order.amountRemaining := by
      simp only [fillOf, Option.ite_none_left_eq_some, Option.some.injEq, Prod.mk.injEq] at hplan
      exact hplan.2.1.symm
    by_cases hall : got = visit.order.amountRemaining
    · exact .filled (hgot.trans hall)
    · have hmost : got = affordable visit.order.unitPrice visit.offered := by omega
      refine .partly ?_ ?_ ?_ ?_
      · rw [hgot, ← hstanding.affordable_eq, hmost]
      · omega
      · omega
      · rw [hpaid', hpaid, hmost, ← hstanding.affordable_eq]
        exact affordable_sub_cost hstanding.unitPrice_pos

/-- The visits of a new order are in accordance with price and time, and buy as much as possible. -/
structure PriceTime (s : State) (pnew : CMPMetaDEx) (visits : List Visit) : Prop where
  matching : ∀ visit ∈ visits,
    s.orderAt visit.order.place = some visit.order ∧ Matches pnew visit.order
  sorted : (visits.map Visit.order).Pairwise Precedes
  /-- a matching order that is not visited comes later, and is not visited because nothing is left -/
  until_exhausted : ∀ place order, s.orderAt place = some order → Matches pnew order →
    order ∉ visits.map Visit.order →
    unspent pnew.amountRemaining visits = 0 ∧ ∀ visit ∈ visits, Precedes visit.order order
  outcome : ∀ before visit after, visits = before ++ visit :: after →
    visit.offered = unspent pnew.amountRemaining before ∧ 0 < visit.offered ∧
      visit.Outcome pnew.inversePrice

theorem priceTime_visitsOf (hbook : s.BookOk) (hnew : Standing pnew) :
    PriceTime s pnew (visitsOf s pnew) where
  matching _ := stored_of_mem_visitsOf hbook
  sorted := visitsOf_sorted hbook
  until_exhausted := by
    intro place order hstored hmatch hnot
    have hmem := mem_candidates_of_stored hbook hstored hmatch
    constructor
    · rcases plan_exhausts pnew.inversePrice pnew.amountRemaining (candidates s pnew) with hall | hzero
      · rw [visitsOf, hall] at hnot
        exact absurd hmem hnot
      · exact hzero
    · intro visit hvisit
      obtain ⟨rest, hrest⟩ := plan_orders pnew.inversePrice pnew.amountRemaining (candidates s pnew)
      have hsorted : (candidates s pnew).Pairwise Precedes := candidates_sorted hbook
      rw [← hrest] at hmem hsorted
      have hlater : order ∈ rest := (List.mem_append.mp hmem).resolve_left hnot
      exact (List.pairwise_append.mp hsorted).2.2 _ (List.mem_map_of_mem hvisit) _ hlater
  outcome := by
    intro before visit after hsplit
    have hvisit : visit ∈ visitsOf s pnew := by simp [hsplit]
    obtain ⟨hstanding, hpos, -, hfill⟩ := visit_of_mem_visitsOf hbook hnew hvisit
    exact ⟨plan_offered hsplit, hpos, outcome_of_fill hstanding hpos hfill⟩

/-- **Price-time priority and maximal matching.**  A new order visits the matching orders by price,
block and index, each of them once, until nothing is left of it; each visit buys as much as
possible; and no other order is changed. -/
theorem xTrade_price_time (env : Env) (hbook : s.BookOk) (hnew : Standing pnew)
    (hsides : pnew.property ≠ pnew.desiredProperty) :
    xTrade env pnew s = follow env pnew (visitsOf s pnew) s ∧
      PriceTime s pnew (visitsOf s pnew) ∧
      wp (xTrade env pnew) (fun traded s' =>
        traded = { pnew with
          amountRemaining := unspent pnew.amountRemaining (visitsOf s pnew) } ∧
        (∀ visit ∈ visitsOf s pnew, s'.orderAt visit.order.place = visit.kept) ∧
        (∀ place, place ∉ (visitsOf s pnew).map (fun visit => visit.order.place) →
          s'.orderAt place = s.orderAt place) ∧
        ∀ place order, s.orderAt place = some order → ¬Matches pnew order →
          s'.orderAt place = some order) (fun _ _ => True) s := by
  refine ⟨xTrade_eq hbook hnew (.inl hsides), priceTime_visitsOf hbook hnew, ?_⟩
  refine wp_mono (wp_xTrade_book hbook hnew (.inl hsides)) ?_ fun _ _ _ => trivial
  rintro traded s' ⟨hleft, hmatched⟩
  refine ⟨hleft, hmatched.visited, hmatched.other, fun place order hstored hmatch => ?_⟩
  rw [hmatched.other place (not_visited_of_not_matches hbook hstored hmatch), hstored]

/-- A book with one order: 9 of 10 tokens remain, for which 7 were asked. -/
def bookOrder : CMPMetaDEx :=
  { block := 1, txid := 1, idx := 1, property := 3, amountForsale := 10, desiredProperty := 1,
    amountDesired := 7, amountRemaining := 9, subaction := 1, addr := "seller".toList }

/-- What is offered must be paid, and what is sold must be reserved. -/
def bookState : State :=
  (((State.empty sampleEnv mainConsensusParams).addTally "seller".toList 3 9
    .METADEX_RESERVE).addTally "buyer".toList 1 7 .BALANCE).insertOrder 3 bookOrder.unitPrice
      bookOrder

/-- An order that offers `amount` for the rest of `bookOrder`. -/
def bidOrder (amount : Int) : CMPMetaDEx :=
  { block := 2, txid := 2, idx := 1, property := 1, amountForsale := amount, desiredProperty := 3,
    amountDesired := 9, amountRemaining := amount, subaction := 1, addr := "buyer".toList }

theorem bookOk_bookState : bookState.BookOk := by
  refine State.BookOk.insertOrder ?_ ⟨rfl, rfl, rfl, ?_, ?_, ?_, ?_, ?_⟩
  · intro prop price key order hget
    simp [mdSet, addTally, State.empty] at hget
  all_goals decide

theorem standing_bidOrder : Standing (bidOrder 7) := by
  constructor <;> decide

/-- There is a book and a new order for which all of this holds. -/
theorem xTrade_price_time_bookState :
    bookState.BookOk ∧ PriceTime bookState (bidOrder 7) (visitsOf bookState (bidOrder 7)) :=
  ⟨bookOk_bookState,
    (xTrade_price_time sampleEnv bookOk_bookState standing_bidOrder (by decide)).2.1⟩

/-! ### The arithmetic of a visit -/

namespace Visit

/-- `nCouldBuy` -/
def could (visit : Visit) : Int :=
  min (visit.offered * visit.order.amountForsale / visit.order.amountDesired)
    visit.order.amountRemaining

/-- `nWouldPay` -/
def pay (visit : Visit) : Int := cost visit.order.unitPrice visit.could

/-- The new order when the visit begins. -/
def buyer (pnew : CMPMetaDEx) (visit : Visit) : CMPMetaDEx :=
  { pnew with amountRemaining := visit.offered }

/-- What the matching asserts about a visit, and why its calculations are exact. -/
structure InBounds (pnew : CMPMetaDEx) (visit : Visit) : Prop where
  old_pos : 0 < visit.order.amountRemaining
  new_pos : 0 < visit.offered
  sides : pnew.property ≠ pnew.desiredProperty
  pays : pnew.property = visit.order.desiredProperty
  sells : visit.order.property = pnew.desiredProperty
  old_price : visit.order.unitPrice ≤ pnew.inversePrice
  new_price : pnew.unitPrice ≤ visit.order.inversePrice
  product : visit.offered * visit.order.amountForsale < 2 ^ 256
  product' : visit.could * visit.order.amountDesired < 2 ^ 256
  could_fits : 0 ≤ visit.could ∧ visit.could ≤ MAX_INT_8_BYTES
  pay_fits : 0 ≤ visit.pay ∧ visit.pay ≤ MAX_INT_8_BYTES
  pay_le : visit.pay ≤ visit.offered
  /-- the calculation returns: none of its assertions fails -/
  amounts : matchAmounts (visit.buyer pnew) visit.order = pure visit.fill
  fill : ∀ got paid, visit.fill = some (got, paid) → got = visit.could ∧ paid = visit.pay ∧
    visit.order.unitPrice ≤ (paid : ℚ) / got ∧ (paid : ℚ) / got ≤ pnew.inversePrice
  old_left : 0 ≤ visit.order.amountRemaining - visit.got
  new_left : 0 ≤ visit.offered - visit.paid
  /-- what the book keeps and what was bought add up to what there was -/
  adds_up : (visit.kept.elim 0 CMPMetaDEx.amountRemaining) + visit.got =
    visit.order.amountRemaining

end Visit

theorem mul_lt_of_amounts {m n : Int} (hm : 0 ≤ m ∧ m ≤ MAX_INT_8_BYTES)
    (hn : 0 ≤ n ∧ n ≤ MAX_INT_8_BYTES) : m * n < 2 ^ 256 := by
  have hle : m * n ≤ MAX_INT_8_BYTES * MAX_INT_8_BYTES := Int.mul_le_mul hm.2 hn.2 hn.1 (by decide)
  exact lt_of_le_of_lt hle (by decide)

/-- **Every visit stays in bounds.** -/
theorem inBounds_of_mem_visitsOf (hbook : s.BookOk) (hnew : Standing pnew) (hsides : Sided s pnew)
    (hvisit : visit ∈ visitsOf s pnew) : visit.InBounds pnew := by
  obtain ⟨hstored, hsells, hpays, hprice⟩ := stored_of_mem_visitsOf hbook hvisit
  obtain ⟨hold, hpos, hle, hfill⟩ := visit_of_mem_visitsOf hbook hnew hvisit
  have hne : pnew.property ≠ pnew.desiredProperty := by
    rcases hsides with hne | hbookSides
    · exact hne
    · rw [← hsells, ← hpays]
      exact (hbookSides _ _ hstored).symm
  have hmax := Int.le_trans hle (Int.le_trans hnew.remaining_le hnew.forsale_le)
  have hbuyer : Standing (visit.buyer pnew) :=
    ⟨hpos, Int.le_trans hle hnew.remaining_le, hnew.forsale_le, hnew.desired_pos, hnew.desired_le⟩
  have hremaining := hold.remaining_pos
  have hremaining' := Int.le_trans hold.remaining_le hold.forsale_le
  have hdesired := hold.desired_le
  have hafford := affordable_nonneg hold.unitPrice_pos (Int.le_of_lt hpos)
  have hcould : visit.could = min (affordable visit.order.unitPrice visit.offered)
      visit.order.amountRemaining := by
    rw [hold.affordable_eq]
    rfl
  have hcouldFits : 0 ≤ visit.could ∧ visit.could ≤ MAX_INT_8_BYTES := by omega
  have hpay : visit.pay ≤ visit.offered := cost_le_of_le hold.unitPrice_pos (by omega)
  have hpayNonneg : 0 ≤ visit.pay := by
    unfold Visit.pay cost
    exact Int.ceil_nonneg (mul_nonneg (Int.cast_nonneg hcouldFits.1) (le_of_lt hold.unitPrice_pos))
  have hfilled : ∀ got paid, visit.fill = some (got, paid) → got = visit.could ∧ paid = visit.pay ∧
      visit.order.unitPrice ≤ (paid : ℚ) / got ∧ (paid : ℚ) / got ≤ pnew.inversePrice := by
    intro got paid hsome
    rw [hfill] at hsome
    obtain ⟨-, -, -, -, -, hpaid, hlower, hupper⟩ := hold.fillOf_eq_some hpos hsome
    have hgot : got = visit.could := by
      rw [hcould]
      simp only [fillOf, Option.ite_none_left_eq_some, Option.some.injEq, Prod.mk.injEq] at hsome
      exact hsome.2.1.symm
    refine ⟨hgot, ?_, hlower, hupper⟩
    rw [hpaid, hgot]
    rfl
  have hgot : visit.got = 0 ∨ visit.got = visit.could := by
    unfold Visit.got
    cases hcase : visit.fill with
    | none => exact .inl rfl
    | some fill => exact .inr (hfilled fill.1 fill.2 hcase).1
  have hpaid : visit.paid = 0 ∨ visit.paid = visit.pay := by
    unfold Visit.paid
    cases hcase : visit.fill with
    | none => exact .inl rfl
    | some fill => exact .inr (hfilled fill.1 fill.2 hcase).2.1
  refine ⟨hremaining, hpos, hne, hpays.symm, hsells, hprice,
    hnew.unitPrice_le_inversePrice hold hprice, ?_, ?_, hcouldFits, ⟨hpayNonneg, by omega⟩, hpay, ?_,
    hfilled, by omega, by omega, ?_⟩
  · exact mul_lt_of_amounts ⟨Int.le_of_lt hpos, hmax⟩ ⟨Int.le_of_lt hold.forsale_pos, hold.forsale_le⟩
  · exact mul_lt_of_amounts hcouldFits ⟨Int.le_of_lt hold.desired_pos, hdesired⟩
  · rw [matchAmounts_eq hbuyer hold, hfill]
    rfl
  · unfold Visit.kept
    split
    · dsimp only [Option.elim_some]
      omega
    · dsimp only [Option.elim_none]
      omega

/-- **The arithmetic of the matching is sound.**  For every well-formed book and every new order, the
matching is the token movements of its visits, so none of its assertions about orders and amounts
fails; every visit stays in bounds; and what is offered at one visit and not paid is offered at the
next. -/
theorem xTrade_in_bounds (env : Env) (hbook : s.BookOk) (hnew : Standing pnew)
    (hsides : Sided s pnew) :
    xTrade env pnew s = follow env pnew (visitsOf s pnew) s ∧
      (∀ visit ∈ visitsOf s pnew, visit.InBounds pnew) ∧
      ∀ before visit after, visitsOf s pnew = before ++ visit :: after →
        unspent pnew.amountRemaining (before ++ [visit]) + visit.paid = visit.offered := by
  refine ⟨xTrade_eq hbook hnew hsides, fun visit => inBounds_of_mem_visitsOf hbook hnew hsides, ?_⟩
  intro before visit after hsplit
  have hoffered : visit.offered = unspent pnew.amountRemaining before := plan_offered hsplit
  rw [unspent_append, unspent_cons, unspent_nil, hoffered]
  omega

/-- The amounts of the sample order stay in bounds. -/
theorem xTrade_in_bounds_bookState :
    bookState.BookOk ∧ ∀ visit ∈ visitsOf bookState (bidOrder 7), visit.InBounds (bidOrder 7) :=
  ⟨bookOk_bookState,
    (xTrade_in_bounds sampleEnv bookOk_bookState standing_bidOrder (.inl (by decide))).2.1⟩

/-! ### The amount that fills an order -/

theorem Standing.getAmountToFill_eq (h : Standing order) :
    order.getAmountToFill = pure (cost order.unitPrice order.amountRemaining) := by
  have hremaining := h.remaining_pos
  have hle := h.remaining_le
  have hforsale := h.forsale_le
  have hdesired := h.desired_le
  -- an order that is bought as a whole costs at most what it asks for
  have hcost : cost order.unitPrice order.amountRemaining ≤ order.amountDesired := by
    rw [h.cost_le_iff_mul_le, Int.mul_comm order.amountDesired]
    exact Int.mul_le_mul_of_nonneg_right hle (Int.le_of_lt h.desired_pos)
  funext s
  refine Reads.eq_ok ?_
  have hreads := reads_cost (f := pure) (s := s) (P := (· = cost order.unitPrice order.amountRemaining))
    (E := fun _ => False) h ⟨Int.le_of_lt hremaining, by omega⟩ (by omega) (.pure rfl)
  simp only [bind_pure] at hreads
  exact hreads

/-- A new order that offers an amount for all that remains of an old one. -/
structure Bids (amount : Int) (order pnew : CMPMetaDEx) : Prop where
  property : pnew.property = order.desiredProperty
  desiredProperty : pnew.desiredProperty = order.property
  forsale : pnew.amountForsale = amount
  remaining : pnew.amountRemaining = amount
  desired : pnew.amountDesired = order.amountRemaining

namespace Bids

variable {amount : Int} (hbid : Bids amount order pnew) (hold : Standing order)

include hbid hold

theorem standing (hpos : 0 < amount) (hle : amount ≤ MAX_INT_8_BYTES) : Standing pnew := by
  refine ⟨?_, ?_, ?_, ?_, ?_⟩
  · rw [hbid.remaining]
    exact hpos
  · rw [hbid.remaining, hbid.forsale]
  · rw [hbid.forsale]
    exact hle
  · rw [hbid.desired]
    exact hold.remaining_pos
  · rw [hbid.desired]
    exact Int.le_trans hold.remaining_le hold.forsale_le

theorem inversePrice_eq : pnew.inversePrice = (amount : ℚ) / order.amountRemaining := by
  have hne : pnew.amountDesired ≠ 0 := by
    rw [hbid.desired]
    exact ne_of_gt hold.remaining_pos
  rw [CMPMetaDEx.inversePrice, if_pos hne, hbid.forsale, hbid.desired]

theorem matches_iff : Matches pnew order ↔ cost order.unitPrice order.amountRemaining ≤ amount := by
  have hpos : (0 : ℚ) < order.amountRemaining := Int.cast_pos.mpr hold.remaining_pos
  rw [Matches, hbid.inversePrice_eq hold, le_div_iff₀ hpos, mul_comm, cost, Int.ceil_le]
  constructor
  · exact fun h => h.2.2
  · exact fun h => ⟨hbid.desiredProperty.symm, hbid.property.symm, h⟩

end Bids

theorem Precedes.irrefl (order : CMPMetaDEx) : ¬Precedes order order := fun h => h.place_ne rfl

theorem candidates_eq_singleton (hbook : s.BookOk) (hstored : s.orderAt order.place = some order)
    (hmatch : Matches pnew order)
    (honly : ∀ place other, s.orderAt place = some other → Matches pnew other → other = order) :
    candidates s pnew = [order] := by
  have hmem := (mem_candidates hbook).mpr ⟨hstored, hmatch⟩
  have hall : ∀ other ∈ candidates s pnew, other = order := fun other hother =>
    have h := (mem_candidates hbook).mp hother
    honly _ other h.1 h.2
  have hsorted : (candidates s pnew).Pairwise Precedes := candidates_sorted hbook
  generalize candidates s pnew = orders at hmem hall hsorted
  cases orders with
  | nil => cases hmem
  | cons first rest =>
    have hfirst := hall first List.mem_cons_self
    cases rest with
    | nil => rw [hfirst]
    | cons second rest =>
      have hlt := (List.pairwise_cons.mp hsorted).1 second List.mem_cons_self
      rw [hfirst, hall second (by simp)] at hlt
      exact absurd hlt (Precedes.irrefl order)

theorem fillOf_cost (hold : Standing order) :
    fillOf ((cost order.unitPrice order.amountRemaining : ℚ) / order.amountRemaining)
      (cost order.unitPrice order.amountRemaining) order =
      some (order.amountRemaining, cost order.unitPrice order.amountRemaining) := by
  have hle : order.amountRemaining ≤
      affordable order.unitPrice (cost order.unitPrice order.amountRemaining) :=
    le_affordable_cost hold.unitPrice_pos
  unfold fillOf
  dsimp only
  rw [min_eq_right hle, if_neg]
  rintro (hzero | hlt)
  · exact absurd hzero (ne_of_gt hold.remaining_pos)
  · exact absurd hlt (lt_irrefl _)

/-- The tokens of a fill can be moved, and no fee is due. -/
structure Payable (s : State) (pnew order : CMPMetaDEx) (got paid : Int) : Prop where
  feeless : s.aux.params.isFeatureActivated FEATURE_FEES pnew.block = false
  free : s.isAddressFrozen pnew.addr order.desiredProperty = false
  range : s.InRange
  payment : s.CanMove order.desiredProperty paid pnew.addr .BALANCE order.addr .BALANCE
  delivery : (s.move order.desiredProperty paid pnew.addr .BALANCE order.addr .BALANCE).CanMove
    order.property got order.addr .METADEX_RESERVE pnew.addr .BALANCE

theorem Payable.settle_returns {got paid : Int} (h : Payable s pnew order got paid)
    (hproperty : pnew.property = order.desiredProperty)
    (hdesired : pnew.desiredProperty = order.property) :
    wp (settle env pnew order got paid) (fun _ s' => ∀ a p t, s'.money a p t =
      ((s.move order.desiredProperty paid pnew.addr .BALANCE order.addr .BALANCE).move
        order.property got order.addr .METADEX_RESERVE pnew.addr .BALANCE).money a p t)
      (fun _ _ => False) s := by
  have hfee : tradingFeeOf env pnew order got s = .ok 0 s := by
    unfold tradingFeeOf
    rw [bind_of_ok (rfl : (get : Op State) s = .ok s s), if_neg (by simp [h.feeless])]
    rfl
  unfold settle
  rw [wp_bind, wp_ok hfee, hproperty, hdesired, Int.sub_zero, wp_bind]
  simp only [wp_bind (assertUpdateTallyMap order.addr order.desiredProperty paid .BALANCE)]
  refine wp_move_of_canMove (fun _ => h.free) h.range (by decide) h.payment ?_
  rw [wp_bind]
  simp only [wp_bind (assertUpdateTallyMap pnew.addr order.property got .BALANCE)]
  refine wp_move_of_canMove (fun h => by cases h) (h.range.move h.payment) (by decide) h.delivery ?_
  rw [wp_bind, wp_record, wp_modify]
  intro a p t
  rfl

/-- **The advertised amount is exact.**  For an order that is the only one that matches, a new order
that offers the advertised amount for all that remains buys all of it and has nothing left; a new
order that offers less leaves the old one as it is. -/
theorem xTrade_getAmountToFill (env : Env) (hbook : s.BookOk)
    (hstored : s.orderAt order.place = some order)
    (hsides : order.property ≠ order.desiredProperty) :
    ∃ amount, order.getAmountToFill = pure amount ∧ 0 < amount ∧ amount ≤ MAX_INT_8_BYTES ∧
      (∀ pnew, Bids amount order pnew →
        (∀ place other, s.orderAt place = some other → Matches pnew other → other = order) →
        xTrade env pnew s = (settle env pnew order order.amountRemaining amount >>= fun _ =>
          pure { pnew with amountRemaining := 0 }) s ∧
        wp (xTrade env pnew) (fun traded s' => traded = { pnew with amountRemaining := 0 } ∧
          s'.orderAt order.place = none) (fun _ _ => True) s ∧
        (Payable s pnew order order.amountRemaining amount →
          ∃ s', xTrade env pnew s = .ok { pnew with amountRemaining := 0 } s' ∧
            s'.orderAt order.place = none ∧
            ∀ a p t, s'.money a p t = ((s.move order.desiredProperty amount pnew.addr .BALANCE
              order.addr .BALANCE).move order.property order.amountRemaining order.addr
                .METADEX_RESERVE pnew.addr .BALANCE).money a p t)) ∧
      ∀ pnew amount', 0 < amount' → amount' < amount → Bids amount' order pnew →
        wp (xTrade env pnew) (fun _ s' => s'.orderAt order.place = some order)
          (fun _ _ => True) s := by
  have hold := (hbook _ _ _ _ hstored).standing
  have hpos := cost_pos hold.unitPrice_pos hold.remaining_pos
  have hmax : cost order.unitPrice order.amountRemaining ≤ MAX_INT_8_BYTES := by
    refine le_trans (hold.cost_le_iff_mul_le.mpr ?_) hold.desired_le
    rw [Int.mul_comm order.amountDesired]
    exact Int.mul_le_mul_of_nonneg_right hold.remaining_le (Int.le_of_lt hold.desired_pos)
  have hsided : ∀ {amount : Int} {pnew : CMPMetaDEx}, Bids amount order pnew → Sided s pnew := by
    intro amount pnew hbid
    refine .inl ?_
    rw [hbid.property, hbid.desiredProperty]
    exact hsides.symm
  refine ⟨_, hold.getAmountToFill_eq, hpos, hmax, ?_, ?_⟩
  · intro pnew hbid honly
    have hnew := hbid.standing hold hpos hmax
    have hmatch := (hbid.matches_iff hold).mpr (le_refl _)
    have hcandidates := candidates_eq_singleton hbook hstored hmatch honly
    have hvisits : visitsOf s pnew = [⟨order, cost order.unitPrice order.amountRemaining,
        some (order.amountRemaining, cost order.unitPrice order.amountRemaining)⟩] := by
      rw [visitsOf, hcandidates, hbid.remaining, hbid.inversePrice_eq hold, plan,
        if_neg (ne_of_gt hpos), fillOf_cost hold]
      rfl
    have hleft : unspent pnew.amountRemaining (visitsOf s pnew) = 0 := by
      rw [hvisits, hbid.remaining, unspent_cons, unspent_nil]
      exact Int.sub_self _
    have heq : xTrade env pnew s = (settle env pnew order order.amountRemaining
        (cost order.unitPrice order.amountRemaining) >>= fun _ =>
          pure { pnew with amountRemaining := 0 }) s := by
      rw [xTrade_eq hbook hnew (hsided hbid), hvisits, follow_cons, follow_nil]
      simp [settleVisit, Visit.paid, hbid.remaining]
    have hend : wp (xTrade env pnew) (fun traded s' => traded = { pnew with amountRemaining := 0 } ∧
        s'.orderAt order.place = none) (fun _ _ => True) s := by
      refine wp_mono (wp_xTrade_book hbook hnew (hsided hbid)) ?_ fun _ _ _ => trivial
      rintro traded s' ⟨htraded, hmatched⟩
      rw [hleft] at htraded
      refine ⟨htraded, ?_⟩
      have hvisit := hmatched.visited _ (hvisits ▸ List.mem_cons_self)
      simpa [Visit.kept, Visit.got] using hvisit
    refine ⟨heq, hend, fun hpayable => ?_⟩
    obtain ⟨_, s', hsettle, hmoney⟩ :=
      exists_of_wp (hpayable.settle_returns hbid.property hbid.desiredProperty)
    have hok : xTrade env pnew s = .ok { pnew with amountRemaining := 0 } s' := by
      rw [heq, bind_of_ok hsettle]
      rfl
    exact ⟨s', hok, ((wp_ok hok).mp hend).2, hmoney⟩
  · intro pnew amount' hpos' hless hbid
    have hnew := hbid.standing hold hpos' (by omega)
    refine wp_mono (wp_xTrade_book hbook hnew (hsided hbid)) ?_ fun _ _ _ => trivial
    rintro traded s' ⟨-, hmatched⟩
    have hmatch : ¬Matches pnew order := by
      rw [hbid.matches_iff hold]
      exact not_le.mpr hless
    rw [hmatched.other order.place (not_visited_of_not_matches hbook hstored hmatch), hstored]

/-- Seven tokens are advertised, and with seven the order is filled. -/
theorem xTrade_getAmountToFill_seven :
    bookOrder.getAmountToFill = pure 7 ∧
      ∃ s', xTrade sampleEnv (bidOrder 7) bookState =
          .ok { bidOrder 7 with amountRemaining := 0 } s' ∧
        s'.orderAt bookOrder.place = none := by
  have hcandidates : candidates bookState (bidOrder 7) = [bookOrder] := by decide +kernel
  have hstored : bookState.orderAt bookOrder.place = some bookOrder :=
    ((mem_candidates bookOk_bookState).mp (hcandidates ▸ List.mem_singleton_self _)).1
  obtain ⟨amount, hamount, -, -, hfills, -⟩ :=
    xTrade_getAmountToFill sampleEnv bookOk_bookState hstored (by decide)
  have hseven : bookOrder.getAmountToFill bookState = .ok 7 bookState := rfl
  have hsame : amount = 7 := by
    rw [hamount] at hseven
    exact (EStateM.Result.ok.inj hseven).1
  subst hsame
  obtain ⟨-, -, hreturns⟩ := hfills (bidOrder 7) ⟨rfl, rfl, rfl, rfl, rfl⟩ fun place other hget hmatch =>
    List.mem_singleton.mp (hcandidates ▸ mem_candidates_of_stored bookOk_bookState hget hmatch)
  obtain ⟨s', hok, hgone, -⟩ := hreturns
    { feeless := by decide +kernel
      free := by decide +kernel
      range := by
        refine InRange.addTally (InRange.addTally (genesis_empty _ _).range fun _ => ?_) fun _ => ?_
        · decide +kernel
        · decide +kernel
      payment := ⟨by decide, by decide +kernel, by decide +kernel⟩
      delivery := ⟨by decide, by decide +kernel, by decide +kernel⟩ }
  exact ⟨hamount, s', hok, hgone⟩

end HcOmni
