import Mathlib.Algebra.Group.Nat.Defs
import Mathlib.Algebra.Ring.Int.Defs
import SmtSession.Proofs.RoundTrip
import SmtSession.SExpr.Value

/-!
# The values of integers

The signed words reach one further below zero than above it, so a negation can leave them. The
values of s-expressions do not reach that far. A numeral has a value only if a signed word holds it,
which leaves as many numbers below zero as above, and a minus sign keeps to those. So an integer is
read exactly, with any number of signs before it, or not at all.
-/

namespace SmtSession.SExpr

open Reader

/-- The largest number of which a signed word holds both signs. -/
def maxMagnitude : Nat := 2 ^ 63 - 1

/-- An expression with so many minus signs before it. -/
def negated : Nat → SExpr → SExpr
  | 0, expr => expr
  | depth + 1, expr => .list [symbol "-", negated depth expr]

/-- Nothing but blanks. -/
def IsGap (text : List Char) : Prop := ∀ c ∈ text, isBlank c

/-- The decimal digits of a number, after some zeros. -/
def paddedDigits (zeros n : Nat) : List Char := List.replicate zeros '0' ++ Nat.toDigits 10 n

/-- The texts of an integer. A minus sign is only one if a blank stands after it: without it, sign
and digits are one symbol. -/
inductive Literal : Int → List Char → Prop where
  | plain {before after : List Char} (zeros n : Nat) (hbefore : IsGap before)
    (hafter : IsGap after) : Literal n (before ++ (paddedDigits zeros n ++ after))
  | minus {before inner between closing after : List Char} (zeros n : Nat)
    (hbefore : IsGap before) (hinner : IsGap inner) (hbetween : IsGap between)
    (hapart : between ≠ []) (hclosing : IsGap closing) (hafter : IsGap after) :
    Literal (-n) (before ++ '(' :: (inner ++ '-' ::
      (between ++ (paddedDigits zeros n ++ (closing ++ ')' :: after)))))

variable {expr : SExpr}

/-! ### Numerals and signs -/

theorem le_maxValue_iff {m : UInt64} : m ≤ Int64.maxValue.toUInt64 ↔ m.toNat ≤ maxMagnitude := by
  rw [UInt64.le_iff_toNat_le, show Int64.maxValue.toUInt64.toNat = maxMagnitude by decide]

theorem toInt_toInt64 {m : UInt64} (h : m.toNat ≤ maxMagnitude) : m.toInt64.toInt = m.toNat := by
  change m.toInt64.toBitVec.toInt = m.toNat
  rw [UInt64.toBitVec_toInt64, BitVec.toInt_eq_toNat_of_lt]
  · rfl
  · change 2 * m.toNat < 2 ^ 64
    unfold maxMagnitude at h
    omega

/-- The sign of a number that a word holds with both signs can be changed. -/
theorem toInt_neg_of_le {n : Int64} (h : n.toInt.natAbs ≤ maxMagnitude) :
    (-n).toInt = -n.toInt := by
  unfold maxMagnitude at h
  rw [Int64.toInt_neg]
  exact Int.bmod_eq_of_le (by omega) (by omega)

theorem ofNumeral?_of_le {m : UInt64} (h : m.toNat ≤ maxMagnitude) :
    Value.ofNumeral? m = some (.int m.toInt64) :=
  if_pos (le_maxValue_iff.mpr h)

theorem of_ofNumeral? {m : UInt64} {value : Value} (h : Value.ofNumeral? m = some value) :
    m.toNat ≤ maxMagnitude ∧ value = .int m.toInt64 := by
  unfold Value.ofNumeral? at h
  split at h
  · next hle => exact ⟨le_maxValue_iff.mp hle, (Option.some.inj h).symm⟩
  · contradiction

theorem ofSymbol?_eq_bool_iff {text : String} {b : Bool} :
    Value.ofSymbol? text = some (.bool b) ↔ text = if b then "true" else "false" := by
  unfold Value.ofSymbol?
  split_ifs with htrue hfalse <;> cases b <;> simp_all

theorem ofSymbol?_ne_int (text : String) (n : Int64) : Value.ofSymbol? text ≠ some (.int n) := by
  unfold Value.ofSymbol?
  split_ifs <;> simp

theorem natAbs_of_signs {depth : Nat} {m : UInt64} {n : Int64}
    (hm : m.toNat ≤ maxMagnitude) (hn : n.toInt = (-1) ^ depth * m.toNat) :
    n.toInt.natAbs ≤ maxMagnitude := by
  rw [hn, Int.natAbs_mul, Int.natAbs_pow]
  simpa using hm

/-- Every sign turns the value around, however many there are. -/
theorem value?_negated {m : UInt64} (h : m.toNat ≤ maxMagnitude) (depth : Nat) :
    ∃ n : Int64, (negated depth (numeral m)).value? = some (.int n) ∧
      n.toInt = (-1) ^ depth * m.toNat := by
  induction depth with
  | zero => exact ⟨_, ofNumeral?_of_le h, by simp [toInt_toInt64 h]⟩
  | succ depth ih =>
      obtain ⟨n, hvalue, hn⟩ := ih
      refine ⟨-n, ?_, ?_⟩
      · rw [negated, value?, hvalue]
      · rw [toInt_neg_of_le (natAbs_of_signs h hn), hn, pow_succ, mul_neg, mul_one, neg_mul]

/-- Nothing but signs before a numeral has an integer as its value. -/
theorem negated_of_value? {n : Int64} (h : expr.value? = some (.int n)) :
    ∃ depth m, expr = negated depth (numeral m) ∧ m.toNat ≤ maxMagnitude := by
  induction expr using value?.induct generalizing n with
  | case1 m => exact ⟨0, m, rfl, (of_ofNumeral? h).1⟩
  | case2 text => exact absurd h (ofSymbol?_ne_int text n)
  | case3 magnitude i hmagnitude ih =>
      obtain ⟨depth, m, rfl, hm⟩ := ih hmagnitude
      exact ⟨depth + 1, m, rfl, hm⟩
  | case4 magnitude hnone _ =>
      rw [value?] at h
      split at h
      · next i hmagnitude => exact absurd hmagnitude (hnone i)
      · contradiction
  | case5 expr hnumeral hsymbol hminus => simp [value?, *] at h

theorem value?_eq_int_iff {n : Int64} :
    expr.value? = some (.int n) ↔
      ∃ depth m, expr = negated depth (numeral m) ∧ m.toNat ≤ maxMagnitude ∧
        n.toInt = (-1) ^ depth * m.toNat := by
  constructor
  · intro h
    obtain ⟨depth, m, rfl, hm⟩ := negated_of_value? h
    obtain ⟨n', hvalue, hn⟩ := value?_negated hm depth
    obtain rfl : n' = n := by simpa using hvalue.symm.trans h
    exact ⟨depth, m, rfl, hm, hn⟩
  · rintro ⟨depth, m, rfl, hm, hn⟩
    obtain ⟨n', hvalue, hn'⟩ := value?_negated hm depth
    rwa [Int64.toInt_inj.mp (hn.trans hn'.symm)]

theorem value?_eq_bool_iff {b : Bool} :
    expr.value? = some (.bool b) ↔ expr = symbol (if b then "true" else "false") := by
  constructor
  · intro h
    fun_cases value? expr with
    | case1 m => simpa using (of_ofNumeral? h).2
    | case2 text => rw [ofSymbol?_eq_bool_iff.mp h]
    | case3 magnitude i hmagnitude => simp [value?, hmagnitude] at h
    | case4 magnitude hnone =>
        rw [value?] at h
        split at h <;> simp at h
    | case5 hnumeral hsymbol hminus => simp [value?, *] at h
  · rintro rfl
    exact ofSymbol?_eq_bool_iff.mpr rfl

/-! ### Reading a literal -/

section Literal

variable {text before after : List Char} {fuel zeros n : Nat}

theorem clear_of_blank {c : Char} (h : isBlank c) (tail : List Char) : Clear (c :: tail) := by
  simp only [isBlank, Bool.or_eq_true, decide_eq_true_eq] at h
  rcases h with ((rfl | rfl) | rfl) | rfl
  all_goals exact fun d hd => Option.some.inj hd ▸ by decide

theorem clear_of_isGap (h : IsGap before) (hrest : Clear after) : Clear (before ++ after) := by
  cases before with
  | nil => exact hrest
  | cons c before => exact clear_of_blank (h c List.mem_cons_self) _

theorem isDigit_of_mem_paddedDigits {c : Char} (h : c ∈ paddedDigits zeros n) : c.isDigit := by
  rcases List.mem_append.mp h with hzero | hdigit
  · rw [List.eq_of_mem_replicate hzero]
    decide
  · exact Nat.isDigit_of_mem_toDigits (by decide) (by decide) hdigit

theorem paddedDigits_ne_nil (zeros n : Nat) : paddedDigits zeros n ≠ [] :=
  List.append_ne_nil_of_right_ne_nil _ Nat.toDigits_ne_nil

/-- Zeros in front do not count. -/
theorem ofDigitChars_paddedDigits (zeros n : Nat) :
    Nat.ofDigitChars 10 (paddedDigits zeros n) 0 = n := by
  rw [paddedDigits, Nat.ofDigitChars_append, Nat.ofDigitChars_replicate_zero, Nat.mul_zero,
    Nat.ofDigitChars_ten_toDigits]

theorem single_paddedDigits (hn : n ≤ maxMagnitude) (hrest : Clear after) :
    single (paddedDigits zeros n ++ after) = .ok ⟨numeral n.toUInt64, after, after⟩ := by
  have hdigits : ∀ c ∈ paddedDigits zeros n, c.isDigit := fun _ => isDigit_of_mem_paddedDigits
  have hnumber := number_append hdigits hrest
  rw [integerAtom_of_lt, ofDigitChars_paddedDigits] at hnumber
  · obtain ⟨c, tail, heq⟩ := List.exists_cons_of_ne_nil (paddedDigits_ne_nil zeros n)
    rw [heq] at hdigits hnumber ⊢
    rw [List.cons_append, single_digit (hdigits c List.mem_cons_self), ← List.cons_append, hnumber]
  · rw [ofDigitChars_paddedDigits]
    exact Nat.lt_of_le_of_lt hn (by decide)

theorem single_minus (hrest : Clear after) :
    single ('-' :: after) = .ok ⟨symbol "-", after, after⟩ := by
  have hbare : Bare ['-'] := .name (by decide) (List.forall_mem_nil _)
  exact hbare.single hrest

/-- A minus sign and a number, up to the closing parenthesis. -/
theorem items_minus {inner between closing : List Char} (hn : n ≤ maxMagnitude)
    (hinner : IsGap inner) (hbetween : IsGap between) (hapart : between ≠ [])
    (hclosing : IsGap closing) :
    ∃ furthest, items (fuel + 3) (inner ++ '-' :: (between ++ (paddedDigits zeros n ++
      (closing ++ ')' :: after)))) =
        ⟨[symbol "-", numeral n.toUInt64], ')' :: after, furthest⟩ := by
  have hparen : Clear (')' :: after) := clear_of_mem (by decide) after
  obtain ⟨c, blanks, rfl⟩ := List.exists_cons_of_ne_nil hapart
  have hblank : Clear (c :: blanks ++ (paddedDigits zeros n ++ (closing ++ ')' :: after))) :=
    clear_of_blank (hbetween c List.mem_cons_self) _
  have hminus := single_minus hblank
  have hnumeral : single (paddedDigits zeros n ++ (closing ++ ')' :: after)) = _ :=
    single_paddedDigits hn (clear_of_isGap hclosing hparen)
  obtain ⟨furthest, hitems⟩ := items_paren (fuel + 1) after
  refine ⟨furthest, ?_⟩
  rw [items_single hinner hminus, items_single hbetween hnumeral, items_append_gap hclosing, hitems]

theorem read_of_item {expr : SExpr} (hbefore : IsGap before) (hafter : IsGap after)
    (h : ∀ fuel, item (fuel + 4) text = .ok ⟨expr, after, after⟩) :
    read (String.ofList (before ++ text)) = .ok expr := by
  have hstart := dropWhile_of_item (h 0)
  obtain ⟨fuel, hfuel⟩ : ∃ fuel, fuelFor (before ++ text) = fuel + 4 := by
    have hlength := List.length_pos_iff.mpr hstart.1
    refine ⟨fuelFor (before ++ text) - 4, ?_⟩
    rw [fuelFor, List.length_append]
    omega
  have hblank : after.dropWhile isBlank = [] := List.dropWhile_eq_nil_iff.mpr hafter
  unfold read oneChars
  rw [String.toList_ofList, List.dropWhile_append_of_pos hbefore, hstart.2, hfuel, h fuel]
  simp only [hblank]

/-- The text of an integer is read as an expression with that value. -/
theorem read_of_literal {n : Int} {text : List Char} (hn : n.natAbs ≤ maxMagnitude)
    (h : Literal n text) :
    ∃ expr value, read (String.ofList text) = .ok expr ∧ expr.value? = some (.int value) ∧
      value.toInt = n := by
  have hword {n : Nat} (hn : n ≤ maxMagnitude) : n.toUInt64.toNat = n :=
    UInt64.toNat_ofNat_of_lt' (Nat.lt_of_le_of_lt hn (by decide))
  cases h with
  | plain zeros n hbefore hafter =>
      replace hn : n ≤ maxMagnitude := hn
      have hm : n.toUInt64.toNat ≤ maxMagnitude := by rwa [hword hn]
      obtain ⟨value, hvalue, hint⟩ := value?_negated hm 0
      refine ⟨_, value, read_of_item hbefore hafter fun fuel => ?_, hvalue, ?_⟩
      · have hclear := clear_of_isGap hafter clear_nil
        rw [List.append_nil] at hclear
        exact item_of_single (single_paddedDigits hn hclear)
      · rw [hint, hword hn]
        simp
  | minus zeros n hbefore hinner hbetween hapart hclosing hafter =>
      replace hn : n ≤ maxMagnitude := by simpa using hn
      have hm : n.toUInt64.toNat ≤ maxMagnitude := by rwa [hword hn]
      obtain ⟨value, hvalue, hint⟩ := value?_negated hm 1
      refine ⟨_, value, read_of_item hbefore hafter fun fuel => ?_, hvalue, ?_⟩
      · obtain ⟨furthest, hitems⟩ := items_minus hn hinner hbetween hapart hclosing
        exact item_list hitems
      · rw [hint, hword hn]
        simp

end Literal

/-- An expression has an integer value if and only if it is a numeral that a signed word holds, with
any number of minus signs before it, and the value is that number with as many changes of sign; it
has a truth value if and only if it is the word for it. No change of sign on the way leaves the
signed words. And every integer that a word holds with both signs is read from its digits, with any
zeros and blanks about them. -/
theorem values_exact :
    (∀ (expr : SExpr) (n : Int64), expr.value? = some (.int n) ↔
      ∃ depth m, expr = negated depth (numeral m) ∧ m.toNat ≤ maxMagnitude ∧
        n.toInt = (-1) ^ depth * m.toNat) ∧
    (∀ (expr : SExpr) (b : Bool), expr.value? = some (.bool b) ↔
      expr = symbol (if b then "true" else "false")) ∧
    (∀ (expr : SExpr) (n : Int64), expr.value? = some (.int n) →
      (-n).toInt = -n.toInt ∧ (-n).toInt.natAbs ≤ maxMagnitude) ∧
    ∀ (n : Int) (text : List Char), n.natAbs ≤ maxMagnitude → Literal n text →
      ∃ expr value, read (String.ofList text) = .ok expr ∧ expr.value? = some (.int value) ∧
        value.toInt = n := by
  refine ⟨fun _ _ => value?_eq_int_iff, fun _ _ => value?_eq_bool_iff, ?_,
    fun _ _ => read_of_literal⟩
  intro expr n h
  obtain ⟨depth, m, rfl, hm, hn⟩ := value?_eq_int_iff.mp h
  have hle := natAbs_of_signs hm hn
  have hneg := toInt_neg_of_le hle
  exact ⟨hneg, by rwa [hneg, Int.natAbs_neg]⟩

/-- The lowest integer that is read, with zeros in front and on lines of its own. -/
theorem values_exact_lowest :
    ∃ expr value, read "\n(-\t00009223372036854775807 )" = .ok expr ∧
      expr.value? = some (.int value) ∧ value.toInt = -9223372036854775807 ∧
        (-value).toInt = 9223372036854775807 := by
  have hgap (text : List Char) (h : text.all isBlank) : IsGap text := List.all_eq_true.mp h
  have hliteral : Literal (-(9223372036854775807 : Nat)) _ :=
    .minus 4 9223372036854775807 (hgap ['\n'] (by decide)) (hgap [] (by decide))
      (hgap ['\t'] (by decide)) (by simp) (hgap [' '] (by decide)) (hgap [] (by decide))
  obtain ⟨-, -, hneg, hread⟩ := values_exact
  obtain ⟨expr, value, hexpr, hvalue, hint⟩ := hread _ _ (by decide) hliteral
  refine ⟨expr, value, ?_, hvalue, hint, ?_⟩
  · rw [← hexpr]
    congr 1
  · rw [(hneg expr value hvalue).1, hint]
    rfl

end SmtSession.SExpr
