import Mathlib.Algebra.Group.Nat.Defs
import MessageFormat.Proofs.Grammar

/-!
# Integers in names

Reading a name as an integer agrees with the grammar of integers (`readInteger_eq_some_iff`), and
a number small enough is read again from its decimal form (`integer_toDigits`). Names have the
digits of one script only, which `digitValue?_of_name_char` states.
-/

namespace MessageFormat

open Grammar Text

/-! ### Digits -/

/-- Characters are ordered as their codes are. -/
theorem toNat_of_val_le {c d e : Char} (h : d.val ≤ c.val ∧ c.val ≤ e.val) :
    d.toNat ≤ c.toNat ∧ c.toNat ≤ e.toNat :=
  ⟨UInt32.le_iff_toNat_le.1 h.1, UInt32.le_iff_toNat_le.1 h.2⟩

/-- Name characters are between the hyphen and the last letter. -/
theorem toNat_of_name_char {c : Char} (hc : isNameChar c = true) :
    '-'.toNat ≤ c.toNat ∧ c.toNat ≤ 'z'.toNat := by
  change (((c.isUpper || c.isLower) || c.isDigit) || c == '_' || c == '-') = true at hc
  simp only [Bool.or_eq_true, beq_iff_eq] at hc
  rcases hc with ((((hupper | hlower) | hdigit) | rfl) | rfl)
  · obtain ⟨hleast, hmost⟩ := toNat_of_val_le (of_decide_eq_true hupper)
    exact ⟨Nat.le_trans (by decide) hleast, Nat.le_trans hmost (by decide)⟩
  · obtain ⟨hleast, hmost⟩ := Bool.and_eq_true_iff.1 hlower
    obtain ⟨hleast, hmost⟩ := toNat_of_val_le (d := 'a') (e := 'z')
      ⟨of_decide_eq_true hleast, of_decide_eq_true hmost⟩
    exact ⟨Nat.le_trans (by decide) hleast, hmost⟩
  · obtain ⟨hleast, hmost⟩ := Char.isDigit_iff_toNat.1 hdigit
    exact ⟨Nat.le_trans (by decide) hleast, Nat.le_trans hmost (by decide)⟩
  · decide
  · decide

/-- Name characters are not blank. -/
theorem isBlank_of_name_char {c : Char} (hc : isNameChar c = true) : isBlank c = false := by
  have hcode : 45 ≤ c.toNat ∧ c.toNat ≤ 122 := toNat_of_name_char hc
  simp [isBlank]
  omega

/-- Among name characters the decimal digits are `0` to `9`. -/
theorem digitValue?_of_name_char {c : Char} (hc : isNameChar c = true) :
    digitValue? c = if c.isDigit = true then some (c.toNat - '0'.toNat) else none := by
  have hcode : 45 ≤ c.toNat ∧ c.toNat ≤ 122 := toNat_of_name_char hc
  -- All scripts but the first one have their digits beyond the name characters.
  have hlarge : ∀ least ∈ zeroDigits.tail, 128 ≤ least := by decide
  have htail : (zeroDigits.tail.find? fun least => least ≤ c.toNat && c.toNat < least + 10) =
      none := by
    rw [List.find?_eq_none]
    intro least hleast
    have := hlarge least hleast
    simp
    omega
  have hzero : zeroDigits = 48 :: zeroDigits.tail := rfl
  rw [digitValue?, hzero, List.find?_cons, htail]
  by_cases hd : c.isDigit = true
  · have hcode : 48 ≤ c.toNat ∧ c.toNat ≤ 57 := Char.isDigit_iff_toNat.1 hd
    have hin : (decide (48 ≤ c.toNat) && decide (c.toNat < 48 + 10)) = true := by
      simp
      omega
    rw [hin, if_pos hd]
    rfl
  · have hout : (decide (48 ≤ c.toNat) && decide (c.toNat < 48 + 10)) = false := by
      have hcode : ¬ (48 ≤ c.toNat ∧ c.toNat ≤ 57) := mt Char.isDigit_iff_toNat.2 hd
      simp
      omega
    rw [hout, if_neg hd]
    rfl

/-- Among name characters, those that have a value are the digits `0` to `9`. -/
theorem digitValue?_eq_some_iff {c : Char} (hc : isNameChar c = true) {value : Nat} :
    digitValue? c = some value ↔ c.isDigit = true ∧ c.toNat - '0'.toNat = value := by
  rw [digitValue?_of_name_char hc]
  split <;> simp_all

/-- A digit before an underscore starts digits if digits follow. -/
theorem Grammar.digits_underscore_iff {c : Char} {rest : List Char} {ds : List Nat} :
    Digits (c :: '_' :: rest) ds ↔
      c.isDigit = true ∧ ∃ ds', Digits rest ds' ∧ (c.toNat - '0'.toNat) :: ds' = ds := by
  constructor
  · intro h
    cases h with
    | digit _ hrest => cases hrest <;> contradiction
    | underscore hc hrest => exact ⟨hc, _, hrest, rfl⟩
  · rintro ⟨hc, ds', hrest, rfl⟩
    exact .underscore hc hrest

/-- A digit before anything else starts digits if digits follow. -/
theorem Grammar.digits_cons_iff {c d : Char} {rest : List Char} {ds : List Nat} (hd : d ≠ '_') :
    Digits (c :: d :: rest) ds ↔
      c.isDigit = true ∧ ∃ ds', Digits (d :: rest) ds' ∧ (c.toNat - '0'.toNat) :: ds' = ds := by
  constructor
  · intro h
    cases h with
    | digit hc hrest => exact ⟨hc, _, hrest, rfl⟩
    | underscore => exact absurd rfl hd
  · rintro ⟨hc, ds', hrest, rfl⟩
    exact .digit hc hrest

/-- Digits in groups are read as the grammar says. -/
theorem digitGroups_eq_some_iff {s : List Char} (hs : ∀ c ∈ s, isNameChar c = true)
    {ds : List Nat} : digitGroups s = some ds ↔ Digits s ds := by
  fun_induction digitGroups s generalizing ds with
  | case1 =>
      constructor <;> intro h <;> cases h
  | case2 c =>
      rw [Option.map_eq_some_iff]
      simp only [digitValue?_eq_some_iff (hs c List.mem_cons_self)]
      constructor
      · rintro ⟨value, ⟨hc, rfl⟩, rfl⟩
        exact .last hc
      · intro h
        cases h with
        | last hc => exact ⟨_, ⟨hc, rfl⟩, rfl⟩
        | digit _ hrest => cases hrest
  | case3 c d rest hnone =>
      have hc : c.isDigit = false := by
        rw [← Bool.not_eq_true]
        intro hc
        rw [(digitValue?_eq_some_iff (hs c List.mem_cons_self)).2 ⟨hc, rfl⟩] at hnone
        cases hnone
      by_cases hd : d = '_'
      · subst hd
        simp [digits_underscore_iff, hc]
      · simp [digits_cons_iff hd, hc]
  | case4 c rest value hvalue ih =>
      obtain ⟨hc, rfl⟩ := (digitValue?_eq_some_iff (hs c List.mem_cons_self)).1 hvalue
      rw [Option.map_eq_some_iff, digits_underscore_iff, and_iff_right hc]
      simp only [ih fun d hd => hs d (List.mem_cons_of_mem _ (List.mem_cons_of_mem _ hd))]
  | case5 c d rest value hvalue hd ih =>
      obtain ⟨hc, rfl⟩ := (digitValue?_eq_some_iff (hs c List.mem_cons_self)).1 hvalue
      rw [Option.map_eq_some_iff, digits_cons_iff hd, and_iff_right hc]
      simp only [ih fun e he => hs e (List.mem_cons_of_mem _ he)]

/-- Digits start with a digit. -/
theorem Grammar.Digits.head_is_digit {s : List Char} {ds : List Nat} (h : Digits s ds) :
    ∃ c t, s = c :: t ∧ c.isDigit = true := by
  cases h with
  | last hc => exact ⟨_, _, rfl, hc⟩
  | digit hc _ => exact ⟨_, _, rfl, hc⟩
  | underscore hc _ => exact ⟨_, _, rfl, hc⟩

/-! ### Integers -/

/-- A natural number is read where the grammar has one. -/
theorem readNatural_eq_some_iff {s : List Char} (hs : ∀ c ∈ s, isNameChar c = true) {n : Nat} :
    readNatural s = some n ↔ ∃ ds, Digits s ds ∧ ds.length ≤ maxDigits ∧ n = ofDigits ds := by
  rw [readNatural]
  constructor
  · intro h
    split at h
    · cases h
    · next ds hds =>
      split at h
      · next hlength =>
        exact ⟨ds, (digitGroups_eq_some_iff hs).1 hds, hlength, (Option.some.inj h).symm⟩
      · cases h
  · rintro ⟨ds, hds, hlength, rfl⟩
    rw [(digitGroups_eq_some_iff hs).2 hds]
    simp [hlength]

/-- Nothing is trimmed from a name. -/
theorem trimBoth_of_name {s : List Char} (hs : ∀ c ∈ s, isNameChar c = true) :
    trimBoth isIntegerBlank s = s := by
  have hblank : ∀ c, isNameChar c = true → isIntegerBlank c = false := by
    intro c hc
    rw [isIntegerBlank, isBlank_of_name_char hc]
    rfl
  refine trimBoth_eq_self ?_ ?_
  · intro c hc
    exact hblank c (hs c (List.mem_of_mem_head? hc))
  · intro c hc
    exact hblank c (hs c (List.mem_of_getLast? hc))

/-- An integer is read from a name where the grammar has one. -/
theorem readInteger_eq_some_iff {s : List Char} (hs : ∀ c ∈ s, isNameChar c = true) {n : Int} :
    readInteger s = some n ↔ Integer s n := by
  rw [readInteger, trimBoth_of_name hs]
  split
  · next rest =>
    simp only [Option.map_eq_some_iff, bind, pure, Option.bind_eq_some_iff, Option.some.injEq]
    constructor
    · rintro ⟨_, ⟨m, hm, rfl⟩, rfl⟩
      obtain ⟨ds, hds, hlength, rfl⟩ :=
        (readNatural_eq_some_iff fun c hc => hs c (List.mem_cons_of_mem _ hc)).1 hm
      exact .negative hds hlength
    · intro h
      cases h with
      | natural hds _ =>
          obtain ⟨c, t, heq, hc⟩ := hds.head_is_digit
          obtain ⟨rfl, -⟩ := List.cons.inj heq
          exact absurd hc (by decide)
      | negative hds hlength =>
          exact ⟨_, ⟨_, (readNatural_eq_some_iff fun c hc => hs c (List.mem_cons_of_mem _ hc)).2
            ⟨_, hds, hlength, rfl⟩, rfl⟩, rfl⟩
  · next rest =>
    exact absurd (hs '+' (by simp)) (by decide)
  · next hminus _ =>
    rw [Option.map_eq_some_iff]
    constructor
    · rintro ⟨m, hm, rfl⟩
      obtain ⟨ds, hds, hlength, rfl⟩ := (readNatural_eq_some_iff hs).1 hm
      exact .natural hds hlength
    · intro h
      cases h with
      | natural hds hlength =>
          exact ⟨_, (readNatural_eq_some_iff hs).2 ⟨_, hds, hlength, rfl⟩, rfl⟩
      | negative _ _ => exact absurd rfl (hminus _)

/-! ### Decimal forms -/

/-- Digits without underscores, with their values. -/
theorem digits_of_is_digit {s : List Char} (hs : ∀ c ∈ s, c.isDigit = true) (hne : s ≠ []) :
    Digits s (s.map fun c => c.toNat - '0'.toNat) := by
  induction s with
  | nil => exact absurd rfl hne
  | cons c s ih =>
      cases s with
      | nil => exact .last (hs c (by simp))
      | cons d s =>
          have hrest := ih (fun e he => hs e (List.mem_cons_of_mem _ he)) (by simp)
          exact .digit (hs c (by simp)) hrest

/-- The values of digits are below ten. -/
theorem Grammar.Digits.lt_ten {s : List Char} {ds : List Nat} (h : Digits s ds) :
    ∀ d ∈ ds, d < 10 := by
  have hdigit : ∀ c : Char, c.isDigit = true → c.toNat - '0'.toNat < 10 := by
    intro c hc
    have hcode : 48 ≤ c.toNat ∧ c.toNat ≤ 57 := Char.isDigit_iff_toNat.1 hc
    have h0 : '0'.toNat = 48 := rfl
    omega
  induction h with
  | last hc => simpa using hdigit _ hc
  | digit hc _ ih => simpa using ⟨hdigit _ hc, ih⟩
  | underscore hc _ ih => simpa using ⟨hdigit _ hc, ih⟩

/-- Appending digits to a number multiplies its bound by a power of ten. -/
theorem foldl_digits_lt {ds : List Nat} (hds : ∀ d ∈ ds, d < 10) (n : Nat) :
    ds.foldl (fun n digit => 10 * n + digit) n < (n + 1) * 10 ^ ds.length := by
  induction ds generalizing n with
  | nil => simp
  | cons d ds ih =>
      have hd := hds d (by simp)
      have hlt := ih (fun e he => hds e (List.mem_cons_of_mem _ he)) (10 * n + d)
      -- The next digit is at most nine, so the number stays below ten times the next one.
      have hle : (10 * n + d + 1) * 10 ^ ds.length ≤ (n + 1) * 10 * 10 ^ ds.length :=
        Nat.mul_le_mul_right _ (by omega)
      rw [List.foldl_cons, List.length_cons, Nat.pow_succ', ← Nat.mul_assoc]
      exact Nat.lt_of_lt_of_le hlt hle

/-- An integer that can be written has at most 4300 digits. -/
theorem Grammar.Integer.lt_pow {s : List Char} {n : Int} (h : Integer s n) :
    n < (10 ^ maxDigits : Nat) := by
  cases h with
  | @natural _ ds hds hlength =>
      have hlt : ofDigits ds < 10 ^ ds.length := by
        have := foldl_digits_lt hds.lt_ten 0
        rwa [Nat.zero_add, Nat.one_mul] at this
      have hmono := Nat.pow_le_pow_right (show 0 < 10 by decide) hlength
      exact Int.ofNat_lt.2 (Nat.lt_of_lt_of_le hlt hmono)
  | @negative _ ds _ _ =>
      have hneg : -(ofDigits ds : Int) ≤ 0 := by omega
      have hpos : 0 < 10 ^ maxDigits := Nat.pow_pos (by decide)
      exact Int.lt_of_le_of_lt hneg (Int.ofNat_lt.2 hpos)

/-- The decimal form of a natural number that has at most 4300 digits is an integer. -/
theorem integer_toDigits {n : Nat} (hn : n < 10 ^ maxDigits) :
    Integer (Nat.toDigits 10 n) n := by
  have hdigits : ∀ c ∈ Nat.toDigits 10 n, c.isDigit = true :=
    fun c hc => Nat.isDigit_of_mem_toDigits (by decide) (by decide) hc
  have hvalue : ofDigits ((Nat.toDigits 10 n).map fun c => c.toNat - '0'.toNat) = n := by
    have := Nat.ofDigitChars_ten_toDigits (n := n)
    rw [Nat.ofDigitChars_eq_foldl] at this
    rw [ofDigits, List.foldl_map]
    exact this
  have hlength : ((Nat.toDigits 10 n).map fun c => c.toNat - '0'.toNat).length ≤ maxDigits := by
    rw [List.length_map]
    exact (Nat.length_toDigits_le_iff (by decide) (by decide)).2 hn
  have h := Integer.natural (digits_of_is_digit hdigits Nat.toDigits_ne_nil) hlength
  rwa [hvalue] at h

end MessageFormat
