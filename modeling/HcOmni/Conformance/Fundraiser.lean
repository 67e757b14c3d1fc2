import HcOmni.Conformance.Crowdsale

/-!
# What a crowdsale purchase creates

The calculation in 256 bits against the same calculation in natural numbers.  No product wraps for
amounts of `int64_t` and percentages of one byte, and where the maximum is exceeded the share of the
issuer never exceeds what can still be created.
-/

namespace HcOmni

open Std MapSum Program CMPTally State

variable {s : State} {E : Halt → Prop}

/-! ### The amounts -/

/-- The weeks in the given number of seconds, with twelve decimals. -/
def weeksLeft (seconds : Nat) : Nat :=
  seconds / 604800 * 1000000000000 + seconds % 604800 * 1000000000000 / 604800

/-- The factor of the early bird bonus, with twelve decimals. -/
def bonusFactor (seconds bonus : Nat) : Nat :=
  (1000000000000 * 100 + weeksLeft seconds * bonus) / 100

/-- The tokens for the user. -/
def userTokens (inflate : Bool) (amount props seconds bonus : Nat) : Nat :=
  (if inflate then amount * 100000000 else amount) * props * bonusFactor seconds bonus /
    (1000000000000 * 100000000)

/-- The tokens for the issuer, as a percentage of those for the user. -/
def issuerTokens (user perc : Nat) : Nat := user * perc / 100

/-- The seconds of the bonus that are left. -/
def secondsLeft (deadline now : Int) : Nat := (deadline - now).toNat

theorem weeksLeft_lt {seconds : Nat} (h : seconds < 2 ^ 63) : weeksLeft seconds < 2 ^ 85 := by
  unfold weeksLeft
  have hwhole : seconds / 604800 < 2 ^ 44 := by omega
  have hpart : seconds % 604800 * 1000000000000 / 604800 < 2 ^ 84 := by omega
  omega

theorem bonusFactor_lt {seconds bonus : Nat} (h : seconds < 2 ^ 63) (hbonus : bonus < 2 ^ 8) :
    bonusFactor seconds bonus < 2 ^ 87 := by
  have hproduct : weeksLeft seconds * bonus < 2 ^ 85 * 2 ^ 8 :=
    Nat.mul_lt_mul'' (weeksLeft_lt h) hbonus
  unfold bonusFactor
  omega

theorem created_lt (inflate : Bool) {amount props seconds bonus : Nat} (hamount : amount < 2 ^ 63)
    (hprops : props < 2 ^ 63) (hseconds : seconds < 2 ^ 63) (hbonus : bonus < 2 ^ 8) :
    (if inflate then amount * 100000000 else amount) * props < 2 ^ 153 ∧
      (if inflate then amount * 100000000 else amount) * props * bonusFactor seconds bonus <
        2 ^ 240 := by
  have hinflated : (if inflate then amount * 100000000 else amount) < 2 ^ 90 := by split <;> omega
  have hproduct := Nat.mul_lt_mul'' hinflated hprops
  have hcreated := Nat.mul_lt_mul'' hproduct (bonusFactor_lt hseconds hbonus)
  exact ⟨hproduct, hcreated⟩

theorem userTokens_lt (inflate : Bool) {amount props seconds bonus : Nat} (hamount : amount < 2 ^ 63)
    (hprops : props < 2 ^ 63) (hseconds : seconds < 2 ^ 63) (hbonus : bonus < 2 ^ 8) :
    userTokens inflate amount props seconds bonus < 2 ^ 174 := by
  have hcreated := (created_lt inflate hamount hprops hseconds hbonus).2
  unfold userTokens
  omega

theorem issuerTokens_lt {user perc : Nat} (huser : user < 2 ^ 174) (hperc : perc < 2 ^ 8) :
    issuerTokens user perc < 2 ^ 176 := by
  have hproduct := Nat.mul_lt_mul'' huser hperc
  unfold issuerTokens
  omega

/-! ### Sums, differences and products of 256 bits -/

/-- How sums, differences and products are formed. -/
structure Arith256 where
  add : ArithUint256 → ArithUint256 → Op ArithUint256
  sub : ArithUint256 → ArithUint256 → Op ArithUint256
  mul : ArithUint256 → ArithUint256 → Op ArithUint256

namespace Arith256

/-- As `arith_uint256` forms them: modulo 2 ^ 256. -/
def wrapping : Arith256 where
  add x y := pure (x + y)
  sub x y := pure (x - y)
  mul x y := pure (x * y)

/-- Throws where a result is out of range. -/
def checked : Arith256 where
  add x y := if x.toNat + y.toNat < 2 ^ 256 then pure (x + y) else throw .thrown
  sub x y := if y.toNat ≤ x.toNat then pure (x - y) else throw .thrown
  mul x y := if x.toNat * y.toNat < 2 ^ 256 then pure (x * y) else throw .thrown

/-- Results in range are those of natural numbers. -/
structure Exact (arith : Arith256) : Prop where
  add : ∀ {x y : ArithUint256} {m n : Nat} {E : Halt → Prop} {s : State}, x.toNat = m → y.toNat = n →
    m + n < 2 ^ 256 → Reads (arith.add x y) (fun r => r.toNat = m + n) E s
  sub : ∀ {x y : ArithUint256} {m n : Nat} {E : Halt → Prop} {s : State}, x.toNat = m → y.toNat = n →
    n ≤ m → Reads (arith.sub x y) (fun r => r.toNat = m - n) E s
  mul : ∀ {x y : ArithUint256} {m n : Nat} {E : Halt → Prop} {s : State}, x.toNat = m → y.toNat = n →
    m * n < 2 ^ 256 → Reads (arith.mul x y) (fun r => r.toNat = m * n) E s

theorem exact_wrapping : wrapping.Exact where
  add hx hy h := .pure (by rw [BitVec.toNat_add, hx, hy, Nat.mod_eq_of_lt h])
  sub hx hy h := .pure (by rw [toNat_sub_of_le (BitVec.le_def.mpr (by rw [hx, hy]; exact h)), hx, hy])
  mul hx hy h := .pure (by rw [BitVec.toNat_mul, hx, hy, Nat.mod_eq_of_lt h])

theorem exact_checked : checked.Exact where
  add hx hy h := .ite (fun _ => exact_wrapping.add hx hy h) fun hnot => absurd (hx ▸ hy ▸ h) hnot
  sub hx hy h := .ite (fun _ => exact_wrapping.sub hx hy h) fun hnot => absurd (hx ▸ hy ▸ h) hnot
  mul hx hy h := .ite (fun _ => exact_wrapping.mul hx hy h) fun hnot => absurd (hx ▸ hy ▸ h) hnot

end Arith256

/-! ### The calculation, for either way to form them -/

/-- `modulo256` -/
def modulo256With (arith : Arith256) (a n : ArithUint256) : Op ArithUint256 := do
  let quotient ← divide256 a n
  let product ← arith.mul n quotient
  arith.sub a product

/-- `earlyBirdSeconds` -/
def earlyBirdSecondsWith (arith : Arith256) (fundraiserSecs currentSecs : Int) : Op ArithUint256 :=
  if currentSecs < fundraiserSecs then do
    let deadline256 ← convertTo256 fundraiserSecs
    let current256 ← convertTo256 currentSecs
    arith.sub deadline256 current256
  else
    pure 0

/-- The amount in the unit of divisible tokens. -/
def inflatedWith (arith : Arith256) (inflateAmount : Bool) (amount256 : ArithUint256) :
    Op ArithUint256 :=
  if inflateAmount then arith.mul amount256 100000000 else pure amount256

/-- `fundraiserTokens` -/
def fundraiserTokensWith (arith : Arith256) (inflateAmount : Bool) (amtTransfer : Int) (bonusPerc : Nat)
    (fundraiserSecs currentSecs numProps : Int) (issuerPerc : Nat) :
    Op (ArithUint256 × ArithUint256) := do
  let bonusSeconds ← earlyBirdSecondsWith arith fundraiserSecs currentSecs
  let wholeWeeks ← divide256 bonusSeconds 604800
  let restSeconds ← modulo256With arith bonusSeconds 604800
  let partWeek ← arith.mul restSeconds 1000000000000
  let partWeek ← divide256 partWeek 604800
  let wholeWeeks ← arith.mul wholeWeeks 1000000000000
  let weeks ← arith.add wholeWeeks partWeek
  let ebPercentage ← arith.mul weeks (BitVec.ofNat 256 bonusPerc)
  let bonusPercentage ← arith.mul 1000000000000 100
  let bonusPercentage ← arith.add bonusPercentage ebPercentage
  let bonusPercentage ← divide256 bonusPercentage 100
  let issuerPercentage ← arith.mul (BitVec.ofNat 256 issuerPerc) 1000000000000
  let issuerPercentage ← divide256 issuerPercentage 100
  let amount256 ← convertTo256 amtTransfer
  let numProps256 ← convertTo256 numProps
  let createdTokens ← inflatedWith arith inflateAmount amount256
  let createdTokens ← arith.mul createdTokens numProps256
  let createdTokens ← arith.mul createdTokens bonusPercentage
  let issuerTokens ← divide256 createdTokens 100000000
  let issuerTokens ← divide256 issuerTokens 1000000000000
  let issuerShare ← divide256 issuerPercentage 100
  let issuerTokens ← arith.mul issuerTokens issuerShare
  let issuerTokens ← arith.mul issuerTokens 1000000000000
  let createdInt ← divide256 createdTokens 1000000000000
  let createdInt ← divide256 createdInt 100000000
  let issuerInt ← divide256 issuerTokens 1000000000000
  let issuerInt ← divide256 issuerInt 100000000
  let issuerInt ← divide256 issuerInt 100
  pure (createdInt, issuerInt)

/-- `calculateFundraiser` -/
def calculateFundraiserWith (arith : Arith256) (inflateAmount : Bool) (amtTransfer : Int)
    (bonusPerc : Nat) (fundraiserSecs currentSecs numProps : Int) (issuerPerc : Nat)
    (totalTokens : Int) : Op (Int × Int × Bool) := do
  let tokens ← fundraiserTokensWith arith inflateAmount amtTransfer bonusPerc fundraiserSecs currentSecs
    numProps issuerPerc
  let total256 ← convertTo256 totalTokens
  let newTotalCreated ← arith.add total256 tokens.1
  let newTotalCreated ← arith.add newTotalCreated tokens.2
  if newTotalCreated > maxInt64 then
    let maxCreatable ← arith.sub maxInt64 total256
    let ratio ← arith.add tokens.1 tokens.2
    let ratio ← arith.mul ratio 1000000000000
    let ratio ← arith.mul ratio 100000000
    let ratio ← divide256 ratio maxCreatable
    let issuerCut ← arith.mul tokens.2 1000000000000
    let issuerCut ← arith.mul issuerCut 100000000
    let issuerCut ← divide256 issuerCut ratio
    assertThat .other (decide (issuerCut ≤ maxCreatable))
    let forUser ← arith.sub maxCreatable issuerCut
    let forUser ← convertTo64 forUser
    let forIssuer ← convertTo64 issuerCut
    pure (forUser, forIssuer, true)
  else
    let forUser ← convertTo64 tokens.1
    let forIssuer ← convertTo64 tokens.2
    pure (forUser, forIssuer, false)

theorem calculateFundraiser_eq_wrapping :
    calculateFundraiser = calculateFundraiserWith Arith256.wrapping := by
  funext inflate amount bonus deadline now props perc total
  simp only [calculateFundraiser, calculateFundraiserWith, fundraiserTokens, fundraiserTokensWith,
    earlyBirdSeconds, earlyBirdSecondsWith, modulo256, modulo256With, inflatedWith, Arith256.wrapping,
    pure_bind]
  cases inflate with
  | false => simp only [Bool.false_eq_true, if_false, pure_bind]
  | true => simp only [if_true, pure_bind]

/-! ### What is calculated -/

variable {arith : Arith256}

theorem reads_divide256_toNat {x d : ArithUint256} {m n : Nat} (hx : x.toNat = m) (hd : d.toNat = n)
    (hn : 0 < n) : Reads (divide256 x d) (fun r => r.toNat = m / n) E s := by
  have hne : d ≠ 0 := by
    rintro rfl
    exact absurd hd (Nat.ne_of_lt hn)
  exact (reads_divide256_of_ne hne).mono fun _ h => by rw [h, BitVec.toNat_udiv, hx, hd]

theorem reads_modulo256With (harith : arith.Exact) {x d : ArithUint256} {m n : Nat} (hx : x.toNat = m)
    (hd : d.toNat = n) (hn : 0 < n) :
    Reads (modulo256With arith x d) (fun r => r.toNat = m % n) E s := by
  refine .bind (reads_divide256_toNat hx hd hn) fun quotient hquotient => ?_
  have hle : n * (m / n) ≤ m := Nat.mul_div_le m n
  have hlt : m < 2 ^ 256 := hx ▸ x.isLt
  refine .bind (harith.mul hd hquotient (by omega)) fun product hproduct => ?_
  refine (harith.sub hx hproduct hle).mono fun r hr => ?_
  rw [hr]
  have hdivision := Nat.div_add_mod m n
  omega

theorem reads_earlyBirdSecondsWith (harith : arith.Exact) {deadline now : Int}
    (hdeadline : deadline ≤ MAX_INT_8_BYTES) (htime : now < 0 → E (.abort .other)) :
    Reads (earlyBirdSecondsWith arith deadline now)
      (fun r => r.toNat = secondsLeft deadline now ∧ r.toNat < 2 ^ 63) E s := by
  have hfails : ∀ {n : Int}, n < 0 → now < 0 → ∀ {f : ArithUint256 → Op ArithUint256}
      {P : ArithUint256 → Prop}, Reads (convertTo256 n >>= f) P E s := by
    intro n hn hnow f P
    unfold convertTo256
    rw [decide_eq_false (by omega)]
    exact ⟨rfl, htime hnow⟩
  unfold earlyBirdSecondsWith secondsLeft
  refine .ite (fun hleft => ?_) fun hover => .pure ?_
  · by_cases hd : deadline < 0
    · exact hfails hd (by omega)
    refine .bind (reads_convertTo256_of_nonneg (by omega)) fun deadline256 hdeadline256 => ?_
    by_cases hn : now < 0
    · exact hfails hn hn
    refine .bind (reads_convertTo256_of_nonneg (by omega)) fun now256 hnow256 => ?_
    have hd256 := toNat_ofAmount (n := deadline) ⟨by omega, hdeadline⟩
    have hn256 := toNat_ofAmount (n := now) ⟨by omega, by omega⟩
    rw [← hdeadline256] at hd256
    rw [← hnow256] at hn256
    refine (harith.sub hd256 hn256 (by omega)).mono fun r hr => ?_
    unfold MAX_INT_8_BYTES at hdeadline
    omega
  · change 0 = _ ∧ 0 < _
    omega

/-- The amounts of a purchase that the source can hand to the calculation: both are `int64_t` and not
negative, the percentages are bytes. -/
structure PurchaseTerms (amount props deadline : Int) (bonus perc : Nat) : Prop where
  amount : 0 ≤ amount ∧ amount ≤ MAX_INT_8_BYTES
  props : 0 ≤ props ∧ props ≤ MAX_INT_8_BYTES
  deadline : deadline ≤ MAX_INT_8_BYTES
  bonus : bonus < 2 ^ 8
  perc : perc < 2 ^ 8

section Terms

variable {inflate : Bool} {amount props deadline now : Int} {bonus perc : Nat}

/-- **Nothing is out of range**: the calculation gives the tokens calculated in natural numbers. -/
theorem reads_fundraiserTokensWith (harith : arith.Exact)
    (h : PurchaseTerms amount props deadline bonus perc) (htime : now < 0 → E (.abort .other)) :
    Reads (fundraiserTokensWith arith inflate amount bonus deadline now props perc)
      (fun tokens => tokens.1.toNat = userTokens inflate amount.toNat props.toNat
          (secondsLeft deadline now) bonus ∧
        tokens.2.toNat = issuerTokens tokens.1.toNat perc ∧ tokens.1.toNat < 2 ^ 174) E s := by
  obtain ⟨hamount, hprops, hdeadline, hbonus, hperc⟩ := h
  have hmax : MAX_INT_8_BYTES = 2 ^ 63 - 1 := rfl
  have hweek : (604800 : ArithUint256).toNat = 604800 := by decide
  have hprecision : (1000000000000 : ArithUint256).toNat = 1000000000000 := by decide
  have hsatoshi : (100000000 : ArithUint256).toNat = 100000000 := by decide
  have hhundred : (100 : ArithUint256).toNat = 100 := by decide
  have hbonusNat : (BitVec.ofNat 256 bonus).toNat = bonus := by
    rw [BitVec.toNat_ofNat, Nat.mod_eq_of_lt (by omega)]
  have hpercNat : (BitVec.ofNat 256 perc).toNat = perc := by
    rw [BitVec.toNat_ofNat, Nat.mod_eq_of_lt (by omega)]
  unfold fundraiserTokensWith
  -- the weeks of the bonus
  refine .bind (reads_earlyBirdSecondsWith harith hdeadline htime) fun bonusSeconds hseconds => ?_
  obtain ⟨hseconds, hlt⟩ := hseconds
  rw [hseconds] at hlt
  generalize secondsLeft deadline now = seconds at *
  refine .bind (reads_divide256_toNat hseconds hweek (by decide)) fun _ hwhole =>
    .bind (reads_modulo256With harith hseconds hweek (by decide)) fun _ hrest =>
    .bind (harith.mul hrest hprecision (by omega)) fun _ hpart₁ =>
    .bind (reads_divide256_toNat hpart₁ hweek (by decide)) fun _ hpart =>
    .bind (harith.mul hwhole hprecision (by omega)) fun _ hweeks₁ =>
    .bind (harith.add hweeks₁ hpart (by omega)) fun weeks hweeks => ?_
  change weeks.toNat = weeksLeft seconds at hweeks
  -- the factor of the bonus
  have hearlyLt := Nat.mul_lt_mul'' (weeksLeft_lt hlt) hbonus
  refine .bind (harith.mul hweeks hbonusNat (by omega)) fun _ hearly =>
    .bind (harith.mul hprecision hhundred (by decide)) fun _ hbase =>
    .bind (harith.add hbase hearly (by omega)) fun _ hfactor₁ =>
    .bind (reads_divide256_toNat hfactor₁ hhundred (by decide)) fun factor hfactor => ?_
  change factor.toNat = bonusFactor seconds bonus at hfactor
  -- the tokens before they are rounded
  have hamountNat := toNat_ofAmount hamount
  have hpropsNat := toNat_ofAmount hprops
  have hamountLt : amount.toNat < 2 ^ 63 := by omega
  have hpropsLt : props.toNat < 2 ^ 63 := by omega
  obtain ⟨hfirstLt, hcreatedLt⟩ := created_lt inflate hamountLt hpropsLt hlt hbonus
  have huserLt := userTokens_lt inflate hamountLt hpropsLt hlt hbonus
  refine .bind (harith.mul hpercNat hprecision (by omega)) fun _ hshare₂ =>
    .bind (reads_divide256_toNat hshare₂ hhundred (by decide)) fun _ hshare₁ =>
    .bind (reads_convertTo256_of_nonneg hamount.1) fun amount256 hamount256 =>
    .bind (reads_convertTo256_of_nonneg hprops.1) fun props256 hprops256 => ?_
  rw [← hamount256] at hamountNat
  rw [← hprops256] at hpropsNat
  have hinflate : Reads (inflatedWith arith inflate amount256)
      (fun r => r.toNat = if inflate then amount.toNat * 100000000 else amount.toNat) E s := by
    cases inflate with
    | false => exact .pure hamountNat
    | true => exact harith.mul hamountNat hsatoshi (by omega)
  refine .bind hinflate fun _ hinflated =>
    .bind (harith.mul hinflated hpropsNat (by omega)) fun _ hcreated₁ =>
    .bind (harith.mul hcreated₁ hfactor (by omega)) fun created hcreated => ?_
  -- the tokens of the issuer are calculated from the rounded ones of the user
  have huser : created.toNat / 100000000 / 1000000000000 =
      userTokens inflate amount.toNat props.toNat seconds bonus := by
    rw [hcreated, Nat.div_div_eq_div_mul]
    rfl
  have hshare : perc * 1000000000000 / 100 / 100 = perc * 100000000 := by omega
  refine .bind (reads_divide256_toNat rfl hsatoshi (by decide)) fun _ hissuer₅ =>
    .bind (reads_divide256_toNat hissuer₅ hprecision (by decide)) fun _ hissuer₄ =>
    .bind (reads_divide256_toNat hshare₁ hhundred (by decide)) fun _ hshareNat => ?_
  rw [huser] at hissuer₄
  rw [hshare] at hshareNat
  generalize userTokens inflate amount.toNat props.toNat seconds bonus = user at *
  have hproduct : user * (perc * 100000000) < 2 ^ 174 * 2 ^ 35 := Nat.mul_lt_mul'' huserLt (by omega)
  refine .bind (harith.mul hissuer₄ hshareNat (by omega)) fun _ hissuer₃ =>
    .bind (harith.mul hissuer₃ hprecision (by omega)) fun _ hissuer₂ =>
    .bind (reads_divide256_toNat rfl hprecision (by decide)) fun _ huser₁ =>
    .bind (reads_divide256_toNat huser₁ hsatoshi (by decide)) fun userInt huserInt =>
    .bind (reads_divide256_toNat hissuer₂ hprecision (by decide)) fun _ hissuer₁ =>
    .bind (reads_divide256_toNat hissuer₁ hsatoshi (by decide)) fun _ hissuer₀ =>
    .bind (reads_divide256_toNat hissuer₀ hhundred (by decide)) fun issuer hissuer => .pure ?_
  rw [Nat.div_right_comm, huser] at huserInt
  rw [Nat.mul_div_cancel _ (by decide), ← Nat.mul_assoc, Nat.mul_div_cancel _ (by decide)] at hissuer
  refine ⟨huserInt, ?_, huserInt ▸ huserLt⟩
  dsimp only
  rw [huserInt]
  exact hissuer

theorem issuerCut_le {user issuer : Nat} (left scale : Nat)
    (hissuer : issuer = issuerTokens user perc)
    (hmore : left < user + issuer) (hleft : 0 < left) (hscale : left < scale) :
    0 < (user + issuer) * scale / left ∧
      issuer * scale / ((user + issuer) * scale / left) ≤ left := by
  -- without tokens for the user there are none for the issuer either
  have huser : 0 < user := by
    by_contra hzero
    have : user = 0 := by omega
    subst this
    simp only [issuerTokens, Nat.zero_mul, Nat.zero_div] at hissuer
    omega
  have hratio : 0 < (user + issuer) * scale / left :=
    Nat.div_pos ((Nat.le_of_lt hmore).trans (Nat.le_mul_of_pos_right _ (by omega))) hleft
  have hquotient := Nat.div_add_mod ((user + issuer) * scale) left
  have hrest := Nat.mod_lt ((user + issuer) * scale) hleft
  refine ⟨hratio, Nat.le_of_lt_succ ((Nat.div_lt_iff_lt_mul hratio).mpr ?_)⟩
  -- the tokens of the user outweigh what the ratio loses by rounding
  have hlost : scale ≤ user * scale := Nat.le_mul_of_pos_left _ huser
  have hsum : (user + issuer) * scale = user * scale + issuer * scale := Nat.add_mul _ _ _
  rw [Nat.succ_mul]
  omega

/-- The tokens of the issuer if only so many can still be created. -/
def issuerCut (left user issuer : Nat) : Nat :=
  issuer * (1000000000000 * 100000000) / ((user + issuer) * (1000000000000 * 100000000) / left)

/-- **How a purchase is calculated**: the tokens in full, or if they exceed the maximum everything that
is left, shared between user and issuer.  If nothing is left, the ratio divides by zero. -/
theorem reads_calculateFundraiserWith (harith : arith.Exact) {total : Int}
    (h : PurchaseTerms amount props deadline bonus perc) (htotal : 0 ≤ total ∧ total ≤ MAX_INT_8_BYTES)
    (htime : now < 0 → E (.abort .other)) (hfull : total = MAX_INT_8_BYTES → E .thrown)
    (user issuer : Nat)
    (huser : user = userTokens inflate amount.toNat props.toNat (secondsLeft deadline now) bonus)
    (hissuer : issuer = issuerTokens user perc) :
    Reads (calculateFundraiserWith arith inflate amount bonus deadline now props perc total)
      (fun tokens =>
        (total + user + issuer ≤ MAX_INT_8_BYTES ∧ tokens = (↑user, ↑issuer, false)) ∨
        (MAX_INT_8_BYTES < total + user + issuer ∧
          issuerCut (MAX_INT_8_BYTES - total).toNat user issuer ≤ MAX_INT_8_BYTES - total ∧
          tokens = (MAX_INT_8_BYTES - total - issuerCut (MAX_INT_8_BYTES - total).toNat user issuer,
            ↑(issuerCut (MAX_INT_8_BYTES - total).toNat user issuer), true))) E s := by
  have hmaxValue : MAX_INT_8_BYTES = 2 ^ 63 - 1 := rfl
  have hprecision : (1000000000000 : ArithUint256).toNat = 1000000000000 := by decide
  have hsatoshi : (100000000 : ArithUint256).toNat = 100000000 := by decide
  unfold calculateFundraiserWith
  refine .bind (reads_fundraiserTokensWith harith h htime) fun tokens htokens =>
    .bind (reads_convertTo256_of_nonneg htotal.1) fun total256 htotal256 => ?_
  obtain ⟨huserNat, hissuerNat, hlt⟩ := htokens
  rw [← huser] at huserNat
  rw [huserNat, ← hissuer] at hissuerNat
  have hissuerLt := issuerTokens_lt (huserNat ▸ hlt) h.perc
  rw [← hissuer] at hissuerLt
  have htotalNat := toNat_ofAmount htotal
  rw [← htotal256] at htotalNat
  have hmax64 : maxInt64.toNat = MAX_INT_8_BYTES.toNat := by decide
  refine .bind (harith.add htotalNat huserNat (by omega)) fun _ hsum₁ =>
    .bind (harith.add hsum₁ hissuerNat (by omega)) fun sum hsum => ?_
  refine .ite (fun hmore => ?_) fun hfits => ?_
  · have hgt := BitVec.lt_def.mp hmore
    rw [hsum, hmax64] at hgt
    have hleft : MAX_INT_8_BYTES.toNat - total.toNat = (MAX_INT_8_BYTES - total).toNat := by omega
    refine .bind (harith.sub hmax64 htotalNat (by omega)) fun maxCreatable hcreatable => ?_
    rw [hleft] at hcreatable
    refine .bind (harith.add huserNat hissuerNat (by omega)) fun _ hboth =>
      .bind (harith.mul hboth hprecision (by omega)) fun _ hratio₂ =>
      .bind (harith.mul hratio₂ hsatoshi (by omega)) fun _ hratio₁ => ?_
    by_cases hnone : total = MAX_INT_8_BYTES
    · have hleftZero : (MAX_INT_8_BYTES - total).toNat = 0 := by omega
      have hzero : maxCreatable = 0 := BitVec.eq_of_toNat_eq (hcreatable.trans hleftZero)
      rw [hzero, divide256, if_pos rfl]
      exact ⟨rfl, hfull hnone⟩
    obtain ⟨hratioPos, hcutLe⟩ := issuerCut_le (MAX_INT_8_BYTES - total).toNat
      (1000000000000 * 100000000) hissuer (by omega) (by omega) (by omega)
    change issuerCut (MAX_INT_8_BYTES - total).toNat user issuer ≤ _ at hcutLe
    refine .bind (reads_divide256_toNat hratio₁ hcreatable (by omega)) fun _ hratio => ?_
    rw [Nat.mul_assoc] at hratio
    refine .bind (harith.mul hissuerNat hprecision (by omega)) fun _ hcut₂ =>
      .bind (harith.mul hcut₂ hsatoshi (by omega)) fun _ hcut₁ =>
      .bind (reads_divide256_toNat hcut₁ hratio hratioPos) fun cut hcut => ?_
    rw [Nat.mul_assoc] at hcut
    change cut.toNat = issuerCut (MAX_INT_8_BYTES - total).toNat user issuer at hcut
    generalize issuerCut (MAX_INT_8_BYTES - total).toNat user issuer = cutNat at *
    have hcutLe' : cut ≤ maxCreatable := BitVec.le_def.mpr (by omega)
    rw [decide_eq_true hcutLe']
    refine .bind (.pure trivial : Reads (pure ()) (fun _ => True) E s) fun _ _ =>
      .bind (harith.sub hcreatable hcut (by omega)) fun _ hrestUser =>
      .bind (reads_convertTo64_of_le (by omega)) fun forUser hforUser =>
      .bind (reads_convertTo64_of_le (by omega)) fun forIssuer hforIssuer =>
      .pure (.inr ⟨by omega, by omega, ?_⟩)
    rw [hforUser, hforIssuer, hrestUser, hcut, Nat.cast_sub hcutLe, Int.toNat_of_nonneg (by omega)]
  · have hle := BitVec.le_def.mp (BitVec.not_lt.mp hfits)
    rw [hsum, hmax64] at hle
    refine .bind (reads_convertTo64_of_le (by omega)) fun forUser hforUser =>
      .bind (reads_convertTo64_of_le (by omega)) fun forIssuer hforIssuer => .pure (.inl ⟨?_, ?_⟩)
    · omega
    · rw [hforUser, hforIssuer, huserNat, hissuerNat]

theorem reads_calculateFundraiser_tokens {total : Int}
    (h : PurchaseTerms amount props deadline bonus perc) (htotal : 0 ≤ total ∧ total ≤ MAX_INT_8_BYTES)
    (htime : now < 0 → E (.abort .other)) (hfull : total = MAX_INT_8_BYTES → E .thrown)
    (user issuer : Nat)
    (huser : user = userTokens inflate amount.toNat props.toNat (secondsLeft deadline now) bonus)
    (hissuer : issuer = issuerTokens user perc) :
    Reads (calculateFundraiser inflate amount bonus deadline now props perc total)
      (fun tokens =>
        (total + user + issuer ≤ MAX_INT_8_BYTES ∧ tokens = (↑user, ↑issuer, false)) ∨
        (MAX_INT_8_BYTES < total + user + issuer ∧ tokens.2.2 = true ∧ 0 ≤ tokens.1 ∧
          0 ≤ tokens.2.1 ∧ total + tokens.1 + tokens.2.1 = MAX_INT_8_BYTES)) E s := by
  rw [calculateFundraiser_eq_wrapping]
  refine (reads_calculateFundraiserWith Arith256.exact_wrapping h htotal htime hfull user issuer huser
    hissuer).mono fun tokens htokens => ?_
  rcases htokens with hfits | ⟨hmore, hcut, rfl⟩
  · exact .inl hfits
  · exact .inr ⟨hmore, rfl, by dsimp only; omega, by dsimp only; omega, by dsimp only; omega⟩

/-! ### The result -/

theorem weeksLeft_eq (seconds : Nat) : weeksLeft seconds = seconds * 1000000000000 / 604800 := by
  have hseconds := Nat.div_add_mod seconds 604800
  have hproduct : seconds * 1000000000000 =
      seconds % 604800 * 1000000000000 + 604800 * (seconds / 604800 * 1000000000000) := by omega
  rw [hproduct, Nat.add_mul_div_left _ _ (by decide), Nat.add_comm]
  rfl

/-- The tokens of the user, in terms of the arguments of the source. -/
theorem userTokens_cast (hamount : 0 ≤ amount) (hprops : 0 ≤ props) :
    (userTokens inflate amount.toNat props.toNat (secondsLeft deadline now) bonus : Int) =
      (if inflate then amount * 10 ^ 8 else amount) * props *
        ((10 ^ 14 + max (deadline - now) 0 * 10 ^ 12 / 604800 * bonus) / 100) / 10 ^ 20 := by
  have hinflated : ((if inflate then amount.toNat * 100000000 else amount.toNat : Nat) : Int) =
      if inflate then amount * 10 ^ 8 else amount := by
    cases inflate with
    | false => exact Int.toNat_of_nonneg hamount
    | true =>
      simp only [if_true, Nat.cast_mul, Int.toNat_of_nonneg hamount]
      norm_num
  unfold userTokens bonusFactor
  rw [weeksLeft_eq, Int.natCast_ediv, Nat.cast_mul, Nat.cast_mul, hinflated,
    Int.toNat_of_nonneg hprops]
  simp only [Int.natCast_ediv, Nat.cast_add, Nat.cast_mul, secondsLeft, Int.ofNat_toNat]
  norm_num

/-- **What a purchase creates.**  Nothing is out of range, so the calculation is the same with checked
sums, differences and products, and no assertion fails.  The tokens are those of the formulas, unless
they exceed the maximum; then everything up to the maximum is created. -/
theorem calculateFundraiser_exact {totalTokens : Int}
    (hamount : 1 ≤ amount ∧ amount ≤ MAX_INT_8_BYTES) (hprops : 1 ≤ props ∧ props ≤ MAX_INT_8_BYTES)
    (hnow : 0 ≤ now ∧ now ≤ MAX_INT_8_BYTES) (hdeadline : 0 ≤ deadline ∧ deadline ≤ MAX_INT_8_BYTES)
    (hbonus : bonus < 2 ^ 8) (hperc : perc < 2 ^ 8)
    (htotal : 0 ≤ totalTokens ∧ totalTokens < MAX_INT_8_BYTES) :
    ∃ (u i : Int) (closeCrowdsale : Bool),
      calculateFundraiser inflate amount bonus deadline now props perc totalTokens s =
        .ok (u, i, closeCrowdsale) s ∧
      calculateFundraiserWith Arith256.checked inflate amount bonus deadline now props perc totalTokens
        s = .ok (u, i, closeCrowdsale) s ∧
      0 ≤ u ∧ 0 ≤ i ∧ totalTokens + u + i ≤ MAX_INT_8_BYTES ∧
      (closeCrowdsale = false →
        u = (if inflate then amount * 10 ^ 8 else amount) * props *
          ((10 ^ 14 + max (deadline - now) 0 * 10 ^ 12 / 604800 * bonus) / 100) / 10 ^ 20 ∧
        i = u * perc / 100) ∧
      (closeCrowdsale = true → totalTokens + u + i = MAX_INT_8_BYTES) := by
  have hterms : PurchaseTerms amount props deadline bonus perc :=
    ⟨⟨by omega, hamount.2⟩, ⟨by omega, hprops.2⟩, hdeadline.2, hbonus, hperc⟩
  have htime : now < 0 → False := by omega
  obtain ⟨user, huser⟩ : ∃ user, user = userTokens inflate amount.toNat props.toNat
    (secondsLeft deadline now) bonus := ⟨_, rfl⟩
  have hcalculated : ∀ {arith : Arith256}, arith.Exact → ∃ tokens, _ := fun {arith} harith =>
    (reads_calculateFundraiserWith (s := s) (E := fun _ => False) harith hterms
      ⟨htotal.1, htotal.2.le⟩ htime (by omega) user (issuerTokens user perc) huser rfl).exists_ok
  obtain ⟨tokens, hwrapping, htokens⟩ := hcalculated Arith256.exact_wrapping
  obtain ⟨tokens', hchecked, htokens'⟩ := hcalculated Arith256.exact_checked
  have hcast : (user : Int) = _ := huser ▸ userTokens_cast (by omega) (by omega)
  rw [← calculateFundraiser_eq_wrapping] at hwrapping
  rcases htokens with ⟨hfits, rfl⟩ | ⟨hmore, hcut, rfl⟩
  · rcases htokens' with ⟨-, rfl⟩ | ⟨hmore, -⟩
    · refine ⟨_, _, _, hwrapping, hchecked, by omega, by omega, hfits, fun _ => ⟨hcast, ?_⟩,
        fun hclosed => absurd hclosed Bool.false_ne_true⟩
      rw [issuerTokens, Int.natCast_ediv, Nat.cast_mul]
      rfl
    · omega
  · rcases htokens' with ⟨hfits, -⟩ | ⟨-, -, rfl⟩
    · omega
    · refine ⟨_, _, _, hwrapping, hchecked, by omega, by omega, by omega,
        fun hopen => absurd hopen.symm Bool.false_ne_true, fun _ => ?_⟩
      omega

/-- Two coins at three tokens each, one week before the deadline, with ten percent a week. -/
theorem calculateFundraiser_exact_weekLeft :
    let s : State := { aux := { params := mainConsensusParams } }
    ∃ (u i : Int) (closeCrowdsale : Bool),
      calculateFundraiser false 200000000 10 604800 0 3 10 0 s = .ok (u, i, closeCrowdsale) s ∧
      (closeCrowdsale = false → u = 6 ∧ i = 0) ∧
      (closeCrowdsale = true → 0 + u + i = MAX_INT_8_BYTES) := by
  intro s
  have hamount : 1 ≤ (200000000 : Int) ∧ 200000000 ≤ MAX_INT_8_BYTES := by decide
  have hprops : 1 ≤ (3 : Int) ∧ 3 ≤ MAX_INT_8_BYTES := by decide
  have hnow : 0 ≤ (0 : Int) ∧ 0 ≤ MAX_INT_8_BYTES := by decide
  have hdeadline : 0 ≤ (604800 : Int) ∧ 604800 ≤ MAX_INT_8_BYTES := by decide
  have htotal : 0 ≤ (0 : Int) ∧ 0 < MAX_INT_8_BYTES := by decide
  obtain ⟨u, i, closed, hok, -, -, -, -, hopen, hmaxed⟩ :=
    @calculateFundraiser_exact s false _ _ _ _ 10 10 _ hamount hprops hnow hdeadline (by decide)
      (by decide) htotal
  refine ⟨u, i, closed, hok, fun hfalse => ?_, hmaxed⟩
  obtain ⟨rfl, rfl⟩ := hopen hfalse
  decide

end Terms

/-! ### The bonus that is still missing -/

/-- **What the issuer is still missing** when a crowdsale is closed: the bonus for all tokens of the
users, as far as it can be created. -/
theorem reads_getMissedIssuerBonus_eq {sp : Entry} {crowd : CMPCrowd}
    (hcreated : 0 ≤ crowd.uCreated ∧ 0 ≤ crowd.iCreated ∧
      crowd.uCreated + crowd.iCreated ≤ MAX_INT_8_BYTES) (hperc : sp.percentage < 2 ^ 8)
    (hle : crowd.iCreated ≤ crowd.uCreated * sp.percentage / 100) :
    Reads (getMissedIssuerBonus sp crowd)
      (fun missed => s.getTotalTokens crowd.propertyId = crowd.uCreated + crowd.iCreated ∧
        crowd.iCreated + missed =
          min (crowd.uCreated * sp.percentage / 100) (MAX_INT_8_BYTES - crowd.uCreated)) (CalcError True)
      s := by
  obtain ⟨huser, hissuer, hsum⟩ := hcreated
  have hmax : MAX_INT_8_BYTES = 2 ^ 63 - 1 := rfl
  have hmax64 : maxInt64.toNat = MAX_INT_8_BYTES.toNat := by decide
  have hhundred : (100 : ArithUint256).toNat = 100 := by decide
  have huserNat := toNat_ofAmount (n := crowd.uCreated) ⟨huser, by omega⟩
  have hissuerNat := toNat_ofAmount (n := crowd.iCreated) ⟨hissuer, by omega⟩
  have hpercNat := toNat_ofAmount (n := sp.percentage) ⟨by omega, by omega⟩
  have hexactLt : crowd.uCreated.toNat * sp.percentage < 2 ^ 63 * 2 ^ 8 :=
    Nat.mul_lt_mul'' (by omega) hperc
  have hcast : ((crowd.uCreated.toNat * sp.percentage / 100 : Nat) : Int) =
      crowd.uCreated * sp.percentage / 100 := by
    rw [Int.natCast_ediv, Nat.cast_mul, Int.toNat_of_nonneg huser]
    rfl
  rw [← hcast] at hle ⊢
  unfold getMissedIssuerBonus
  refine .get (.bind reads_assertOther fun _ hassert =>
    .bind (reads_convertTo256_of_nonneg (by omega)) fun perc256 hperc256 =>
    .bind (reads_convertTo256_of_nonneg hissuer) fun issuer256 hissuer256 =>
    .bind (reads_convertTo256_of_nonneg huser) fun user256 huser256 => ?_)
  rw [← hperc256] at hpercNat
  rw [← hissuer256] at hissuerNat
  rw [← huser256] at huserNat
  replace hassert := of_decide_eq_true hassert
  rw [Int.add_comm, toInt64_of_range (by unfold MIN_INT_8_BYTES; omega) hsum] at hassert
  have hproduct : (user256 * perc256).toNat = crowd.uCreated.toNat * sp.percentage := by
    rw [BitVec.toNat_mul, huserNat, hpercNat, Int.toNat_natCast, Nat.mod_eq_of_lt (by omega)]
  refine .bind (reads_divide256_toNat hproduct hhundred (by decide)) fun exact256 hexact => ?_
  have htotal : (user256 + issuer256).toNat = crowd.uCreated.toNat + crowd.iCreated.toNat := by
    rw [BitVec.toNat_add, huserNat, hissuerNat, Nat.mod_eq_of_lt (by omega)]
  have hexactLe : crowd.uCreated.toNat * sp.percentage / 100 ≤
      crowd.uCreated.toNat * sp.percentage := Nat.div_le_self _ _
  generalize crowd.uCreated.toNat * sp.percentage / 100 = bonus at *
  have hmissing : (exact256 - issuer256).toNat = bonus - crowd.iCreated.toNat := by
    rw [toNat_sub_of_le (BitVec.le_def.mpr (by omega)), hexact, hissuerNat]
  have hnewTotal : (user256 + issuer256 + (exact256 - issuer256)).toNat =
      crowd.uCreated.toNat + crowd.iCreated.toNat + (bonus - crowd.iCreated.toNat) := by
    rw [BitVec.toNat_add, htotal, hmissing, Nat.mod_eq_of_lt (by omega)]
  generalize maxInt64 = max64 at *
  refine .ite (fun hless => ?_) fun _ => .ite (fun hmore => ?_) fun hfits => ?_
  · have hlt := BitVec.lt_def.mp hless
    omega
  · have hgt := BitVec.lt_def.mp hmore
    rw [hnewTotal, hmax64] at hgt
    have hleft : (max64 - (user256 + issuer256)).toNat =
        MAX_INT_8_BYTES.toNat - (crowd.uCreated.toNat + crowd.iCreated.toNat) := by
      rw [toNat_sub_of_le (BitVec.le_def.mpr (by omega)), hmax64, htotal]
    refine (reads_convertTo64_of_le (by omega)).mono fun missed hmissed => ⟨hassert, ?_⟩
    rw [min_eq_right (by omega)]
    omega
  · have hle' := BitVec.le_def.mp (BitVec.not_lt.mp hfits)
    rw [hnewTotal, hmax64] at hle'
    refine (reads_convertTo64_of_le (by omega)).mono fun missed hmissed => ⟨hassert, ?_⟩
    rw [min_eq_left (by omega)]
    omega

end HcOmni
