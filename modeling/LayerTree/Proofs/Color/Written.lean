import LayerTree.Color.Reader
import LayerTree.Proofs.Scalar.Rational
import Mathlib.Tactic.FieldSimp

/-!
Written colours.

A colour text is a name, or a number sign with three or four bytes after it, each as one digit that
stands for two or as two characters. Of two characters the first may be a plus sign in place of a
digit. So more is read than texts of hexadecimal digits, and exactly those texts where no plus sign
stands in front of a digit.
-/

set_option autoImplicit false
set_option relaxedAutoImplicit false

namespace LayerTree.Color

open Json (Value)

/-- The number that a character stands for as a hexadecimal digit. -/
def Digit (c : Char) (n : Nat) : Prop :=
  "0123456789abcdef".toList[n]? = some c ∨ "0123456789ABCDEF".toList[n]? = some c

instance (c : Char) (n : Nat) : Decidable (Digit c n) := inferInstanceAs (Decidable (_ ∨ _))

theorem Digit.lt {c : Char} {n : Nat} (h : Digit c n) : n < 16 := by
  rcases h with lower | upper
  · exact (List.getElem?_eq_some_iff.mp lower).1
  · exact (List.getElem?_eq_some_iff.mp upper).1

theorem toNat_lt_of_hexDigit? {c : Char} {n : Nat} (h : Json.hexDigit? c = some n) :
    c.toNat < 128 := by
  have bounded (d : Char) (small : d.toNat < 128) (below : c.val ≤ d.val) : c.toNat < 128 :=
    Nat.lt_of_le_of_lt (UInt32.le_iff_toNat_le.mp below) small
  unfold Json.hexDigit? at h
  split at h
  · next decimal =>
    simp only [Char.isDigit, Bool.and_eq_true, decide_eq_true_eq] at decimal
    exact bounded '9' (by decide) decimal.2
  · split at h
    · next lower =>
      simp only [Bool.and_eq_true, decide_eq_true_eq] at lower
      exact bounded 'f' (by decide) lower.2
    · split at h
      · next upper =>
        simp only [Bool.and_eq_true, decide_eq_true_eq] at upper
        exact bounded 'F' (by decide) upper.2
      · cases h

theorem hexDigit?_eq_some {c : Char} {n : Nat} : Json.hexDigit? c = some n ↔ Digit c n := by
  constructor
  · intro read
    -- all digits are among the first 128 characters, which can be gone through
    have all : ∀ k < 128, ∀ m ∈ Json.hexDigit? (Char.ofNat k), Digit (Char.ofNat k) m := by
      decide +kernel
    have here := all c.toNat (toNat_lt_of_hexDigit? read)
    rw [Char.ofNat_toNat] at here
    exact here n read
  · have lower : ∀ k : Fin 16, Json.hexDigit? "0123456789abcdef".toList[k.val] = some k.val := by
      decide
    have upper : ∀ k : Fin 16, Json.hexDigit? "0123456789ABCDEF".toList[k.val] = some k.val := by
      decide
    rintro (here | here)
    · obtain ⟨below, rfl⟩ := List.getElem?_eq_some_iff.mp here
      exact lower ⟨n, below⟩
    · obtain ⟨below, rfl⟩ := List.getElem?_eq_some_iff.mp here
      exact upper ⟨n, below⟩

def TwoDigits (a b : Char) (byte : Nat) : Prop :=
  ∃ high low, Digit a high ∧ Digit b low ∧ byte = 16 * high + low

/-- The byte that two digits write, or a plus sign and a digit. -/
def TwoCharacters (a b : Char) (byte : Nat) : Prop := TwoDigits a b byte ∨ a = '+' ∧ Digit b byte

/-- The byte that one digit writes in place of two. -/
def Doubled (a : Char) (byte : Nat) : Prop := ∃ n, Digit a n ∧ byte = 17 * n

/-- The red, green, blue and alpha that characters write, where `pair` tells the byte that two of
them write. -/
inductive Writes (pair : Char → Char → Nat → Prop) : List Char → Nat × Nat × Nat × Nat → Prop
  | rgb {r g b : Char} {x y z : Nat} (red : Doubled r x) (green : Doubled g y)
      (blue : Doubled b z) : Writes pair [r, g, b] (x, y, z, 255)
  | rgba {r g b a : Char} {x y z w : Nat} (red : Doubled r x) (green : Doubled g y)
      (blue : Doubled b z) (alpha : Doubled a w) : Writes pair [r, g, b, a] (x, y, z, w)
  | rrggbb {r r' g g' b b' : Char} {x y z : Nat} (red : pair r r' x) (green : pair g g' y)
      (blue : pair b b' z) : Writes pair [r, r', g, g', b, b'] (x, y, z, 255)
  | rrggbbaa {r r' g g' b b' a a' : Char} {x y z w : Nat} (red : pair r r' x) (green : pair g g' y)
      (blue : pair b b' z) (alpha : pair a a' w) :
      Writes pair [r, r', g, g', b, b', a, a'] (x, y, z, w)

theorem Writes.mono {pair pair' : Char → Char → Nat → Prop}
    (wider : ∀ a b byte, pair a b byte → pair' a b byte) {cs : List Char}
    {bytes : Nat × Nat × Nat × Nat} (h : Writes pair cs bytes) : Writes pair' cs bytes := by
  cases h with
  | rgb red green blue => exact .rgb red green blue
  | rgba red green blue alpha => exact .rgba red green blue alpha
  | rrggbb red green blue => exact .rrggbb (wider _ _ _ red) (wider _ _ _ green) (wider _ _ _ blue)
  | rrggbbaa red green blue alpha =>
    exact .rrggbbaa (wider _ _ _ red) (wider _ _ _ green) (wider _ _ _ blue) (wider _ _ _ alpha)

theorem hexDouble?_eq_some {c : Char} {byte : Nat} :
    hexDouble? c = some byte ↔ Doubled c byte := by
  simp only [hexDouble?, Option.map_eq_some_iff, hexDigit?_eq_some, Doubled]
  exact exists_congr fun n => and_congr_right fun _ => eq_comm

theorem not_digit_plus (n : Nat) : ¬Digit '+' n := by
  rw [← hexDigit?_eq_some]
  exact nofun

theorem hexPair?_eq_some {a b : Char} {byte : Nat} :
    hexPair? a b = some byte ↔ TwoCharacters a b byte := by
  unfold hexPair? TwoCharacters TwoDigits
  by_cases sign : a = '+'
  · subst sign
    simp [hexDigit?_eq_some, not_digit_plus]
  · simp only [beq_iff_eq, sign, if_false, Option.bind_eq_some_iff, Option.map_eq_some_iff,
      hexDigit?_eq_some, false_and, or_false]
    constructor
    · rintro ⟨high, first, low, second, rfl⟩
      exact ⟨high, low, first, second, rfl⟩
    · rintro ⟨high, low, first, second, rfl⟩
      exact ⟨high, first, low, second, rfl⟩

theorem hexBytes?_eq_some {cs : List Char} {bytes : Nat × Nat × Nat × Nat} :
    hexBytes? cs = some bytes ↔ Writes TwoCharacters cs bytes := by
  constructor
  · intro read
    unfold hexBytes? at read
    split at read
    · simp only [Option.bind_eq_bind, Option.bind_eq_some_iff, hexDouble?_eq_some,
        Option.some.injEq] at read
      obtain ⟨x, red, y, green, z, blue, rfl⟩ := read
      exact .rgb red green blue
    · simp only [Option.bind_eq_bind, Option.bind_eq_some_iff, hexDouble?_eq_some,
        Option.some.injEq] at read
      obtain ⟨x, red, y, green, z, blue, w, alpha, rfl⟩ := read
      exact .rgba red green blue alpha
    · simp only [Option.bind_eq_bind, Option.bind_eq_some_iff, hexPair?_eq_some,
        Option.some.injEq] at read
      obtain ⟨x, red, y, green, z, blue, rfl⟩ := read
      exact .rrggbb red green blue
    · simp only [Option.bind_eq_bind, Option.bind_eq_some_iff, hexPair?_eq_some,
        Option.some.injEq] at read
      obtain ⟨x, red, y, green, z, blue, w, alpha, rfl⟩ := read
      exact .rrggbbaa red green blue alpha
    · cases read
  · intro written
    cases written with
    | rgb red green blue =>
      simp [hexBytes?, hexDouble?_eq_some.mpr red, hexDouble?_eq_some.mpr green,
        hexDouble?_eq_some.mpr blue]
    | rgba red green blue alpha =>
      simp [hexBytes?, hexDouble?_eq_some.mpr red, hexDouble?_eq_some.mpr green,
        hexDouble?_eq_some.mpr blue, hexDouble?_eq_some.mpr alpha]
    | rrggbb red green blue =>
      simp [hexBytes?, hexPair?_eq_some.mpr red, hexPair?_eq_some.mpr green,
        hexPair?_eq_some.mpr blue]
    | rrggbbaa red green blue alpha =>
      simp [hexBytes?, hexPair?_eq_some.mpr red, hexPair?_eq_some.mpr green,
        hexPair?_eq_some.mpr blue, hexPair?_eq_some.mpr alpha]

def HexDigits (cs : List Char) : Prop :=
  (cs.length = 3 ∨ cs.length = 4 ∨ cs.length = 6 ∨ cs.length = 8) ∧ ∀ c ∈ cs, ∃ n, Digit c n

theorem Writes.length {pair : Char → Char → Nat → Prop} {cs : List Char}
    {bytes : Nat × Nat × Nat × Nat} (h : Writes pair cs bytes) :
    cs.length = 3 ∨ cs.length = 4 ∨ cs.length = 6 ∨ cs.length = 8 := by
  cases h <;> simp

theorem hexDigits_iff {cs : List Char} : HexDigits cs ↔ ∃ bytes, Writes TwoDigits cs bytes := by
  constructor
  · rintro ⟨count, digits⟩
    have doubled {c : Char} (h : ∃ n, Digit c n) : ∃ byte, Doubled c byte := by
      obtain ⟨n, digit⟩ := h
      exact ⟨_, n, digit, rfl⟩
    have paired {a b : Char} (ha : ∃ n, Digit a n) (hb : ∃ n, Digit b n) :
        ∃ byte, TwoDigits a b byte := by
      obtain ⟨high, first⟩ := ha
      obtain ⟨low, second⟩ := hb
      exact ⟨_, high, low, first, second, rfl⟩
    rcases count with three | four | six | eight
    · obtain ⟨r, g, b, rfl⟩ := List.length_eq_three.mp three
      simp only [List.forall_mem_cons] at digits
      obtain ⟨hr, hg, hb, -⟩ := digits
      obtain ⟨x, red⟩ := doubled hr
      obtain ⟨y, green⟩ := doubled hg
      obtain ⟨z, blue⟩ := doubled hb
      exact ⟨_, .rgb red green blue⟩
    · obtain ⟨r, g, b, a, rfl⟩ := List.length_eq_four.mp four
      simp only [List.forall_mem_cons] at digits
      obtain ⟨hr, hg, hb, ha, -⟩ := digits
      obtain ⟨x, red⟩ := doubled hr
      obtain ⟨y, green⟩ := doubled hg
      obtain ⟨z, blue⟩ := doubled hb
      obtain ⟨w, alpha⟩ := doubled ha
      exact ⟨_, .rgba red green blue alpha⟩
    · match cs, six with
      | [r, r', g, g', b, b'], _ =>
        simp only [List.forall_mem_cons] at digits
        obtain ⟨hr, hr', hg, hg', hb, hb', -⟩ := digits
        obtain ⟨x, red⟩ := paired hr hr'
        obtain ⟨y, green⟩ := paired hg hg'
        obtain ⟨z, blue⟩ := paired hb hb'
        exact ⟨_, .rrggbb red green blue⟩
    · match cs, eight with
      | [r, r', g, g', b, b', a, a'], _ =>
        simp only [List.forall_mem_cons] at digits
        obtain ⟨hr, hr', hg, hg', hb, hb', ha, ha', -⟩ := digits
        obtain ⟨x, red⟩ := paired hr hr'
        obtain ⟨y, green⟩ := paired hg hg'
        obtain ⟨z, blue⟩ := paired hb hb'
        obtain ⟨w, alpha⟩ := paired ha ha'
        exact ⟨_, .rrggbbaa red green blue alpha⟩
  · rintro ⟨bytes, written⟩
    refine ⟨written.length, ?_⟩
    have doubled {c : Char} {byte : Nat} (h : Doubled c byte) : ∃ n, Digit c n := by
      obtain ⟨n, digit, -⟩ := h
      exact ⟨n, digit⟩
    have paired {a b : Char} {byte : Nat} (h : TwoDigits a b byte) :
        (∃ n, Digit a n) ∧ ∃ n, Digit b n := by
      obtain ⟨high, low, first, second, -⟩ := h
      exact ⟨⟨high, first⟩, low, second⟩
    cases written with
    | rgb red green blue => simp [doubled red, doubled green, doubled blue]
    | rgba red green blue alpha => simp [doubled red, doubled green, doubled blue, doubled alpha]
    | rrggbb red green blue => simp [paired red, paired green, paired blue]
    | rrggbbaa red green blue alpha => simp [paired red, paired green, paired blue, paired alpha]

theorem Writes.of_not_mem {cs : List Char} {bytes : Nat × Nat × Nat × Nat}
    (h : Writes TwoCharacters cs bytes) (unsigned : '+' ∉ cs) : Writes TwoDigits cs bytes := by
  have digits {a b : Char} {byte : Nat} (pair : TwoCharacters a b byte) (first : '+' ≠ a) :
      TwoDigits a b byte :=
    pair.resolve_right fun sign => first sign.1.symm
  cases h with
  | rgb red green blue => exact .rgb red green blue
  | rgba red green blue alpha => exact .rgba red green blue alpha
  | rrggbb red green blue =>
    simp only [List.mem_cons, not_or] at unsigned
    obtain ⟨hr, -, hg, -, hb, -⟩ := unsigned
    exact .rrggbb (digits red hr) (digits green hg) (digits blue hb)
  | rrggbbaa red green blue alpha =>
    simp only [List.mem_cons, not_or] at unsigned
    obtain ⟨hr, -, hg, -, hb, -, ha, -⟩ := unsigned
    exact .rrggbbaa (digits red hr) (digits green hg) (digits blue hb) (digits alpha ha)

theorem Writes.lt {cs : List Char} {r g b a : Nat} (h : Writes TwoCharacters cs (r, g, b, a)) :
    r < 256 ∧ g < 256 ∧ b < 256 := by
  have doubled {c : Char} {byte : Nat} (h : Doubled c byte) : byte < 256 := by
    obtain ⟨n, digit, rfl⟩ := h
    have small := digit.lt
    omega
  have paired {a b : Char} {byte : Nat} (h : TwoCharacters a b byte) : byte < 256 := by
    rcases h with ⟨high, low, first, second, rfl⟩ | ⟨-, digit⟩
    · have small := first.lt
      have small' := second.lt
      omega
    · exact digit.lt.trans (by decide)
  cases h with
  | rgb red green blue => exact ⟨doubled red, doubled green, doubled blue⟩
  | rgba red green blue _ => exact ⟨doubled red, doubled green, doubled blue⟩
  | rrggbb red green blue => exact ⟨paired red, paired green, paired blue⟩
  | rrggbbaa red green blue _ => exact ⟨paired red, paired green, paired blue⟩

/-! The readers of texts. -/

def names : List String :=
  ["red", "black", "blue", "white", "green", "yellow", "purple", "gray", "darkGray", "lightGray",
    "brown", "orange", "cyan", "magenta", "clear"]

variable {α : Type} [Scalar α]

theorem isSome_named? {name : String} : (named? (α := α) name).isSome = true ↔ name ∈ names := by
  constructor
  · intro known
    unfold named? at known
    split at known <;> first | decide | cases known
  · intro mem
    simp only [names, List.mem_cons, List.not_mem_nil, or_false] at mem
    rcases mem with rfl | rfl | rfl | rfl | rfl | rfl | rfl | rfl | rfl | rfl | rfl | rfl | rfl |
      rfl | rfl <;> rfl

theorem named?_cons_eq_none (cs : List Char) :
    named? (α := α) (String.ofList ('#' :: cs)) = none := by
  have unsigned : ∀ name ∈ names, name.toList.head? ≠ some '#' := by decide
  rw [← Option.not_isSome_iff_eq_none, isSome_named?]
  intro mem
  exact unsigned _ mem (by simp)

def fractions : Nat × Nat × Nat × Nat → Channels α :=
  fun (r, g, b, a) => ⟨r / 255.0, g / 255.0, b / 255.0, a / 255.0⟩

theorem hex?_eq_some {cs : List Char} {c : Channels α} : hex? cs = some c ↔
    ∃ ds bytes, cs = '#' :: ds ∧ Writes TwoCharacters ds bytes ∧ c = fractions bytes := by
  have after (ds : List Char) : Text.stripStart ['#'] cs = some ds ↔ cs = '#' :: ds := by
    cases cs with
    | nil => simp [Text.stripStart]
    | cons first rest =>
      by_cases sign : first = '#'
      · simp [Text.stripStart, sign]
      · simp [Text.stripStart, sign, Ne.symm sign]
  simp only [hex?, Option.map_eq_some_iff, Option.bind_eq_some_iff, after, hexBytes?_eq_some]
  constructor
  · rintro ⟨bytes, ⟨ds, eq, written⟩, rfl⟩
    exact ⟨ds, bytes, eq, written, rfl⟩
  · rintro ⟨ds, bytes, eq, written, rfl⟩
    exact ⟨bytes, ⟨ds, eq, written⟩, rfl⟩

theorem isSome_ofText? (s : String) : (ofText? (α := α) s).isSome = true ↔
    String.ofList (Text.trim s.toList) ∈ names ∨
      ∃ ds bytes, Text.trim s.toList = '#' :: ds ∧ Writes TwoCharacters ds bytes := by
  unfold ofText?
  dsimp only
  rw [Option.isSome_or, Bool.or_eq_true, isSome_named?, Option.isSome_iff_exists]
  simp only [hex?_eq_some]
  refine or_congr_right ⟨?_, ?_⟩
  · rintro ⟨-, ds, bytes, eq, written, -⟩
    exact ⟨ds, bytes, eq, written⟩
  · rintro ⟨ds, bytes, eq, written⟩
    exact ⟨_, ds, bytes, eq, written, rfl⟩

theorem ofText?_eq_fractions {s : String} {ds : List Char} {bytes : Nat × Nat × Nat × Nat}
    (eq : Text.trim s.toList = '#' :: ds) (written : Writes TwoCharacters ds bytes) :
    ofText? s = some (fractions (α := α) bytes) := by
  unfold ofText?
  dsimp only
  rw [eq, named?_cons_eq_none, Option.none_or]
  exact hex?_eq_some.mpr ⟨ds, bytes, rfl, written, rfl⟩

theorem channels?_text (s : String) : channels? (α := α) (.text s) = ofText? s := by
  rw [channels?]

theorem read?_text (s : String) :
    read? α (some (.text s)) = (ofText? s).map (Channels.toColor (α := α)) := by
  rw [read?, Option.bind_some, channels?_text]

theorem fractions_rat (r g b a : Nat) :
    fractions (r, g, b, a) = (⟨r / 255, g / 255, b / 255, a / 255⟩ : Channels Rat) := by
  have scale : (255.0 : Rat) = 255 := by norm_num
  rw [fractions, scale]

theorem toNat_byteOfUnit {byte : Nat} (small : byte < 256) :
    (byteOfUnit (byte / 255 : Rat)).toNat = byte := by
  have scale : (255.0 : Rat) = 255 := by norm_num
  have fits : (byte : Rat) ≤ 255 := by exact_mod_cast Nat.le_of_lt_succ small
  have low : (0 : Rat) ≤ byte / 255 := by positivity
  have high : (byte / 255 : Rat) ≤ 1 := div_le_one_of_le₀ fits (by norm_num)
  have whole : (byte / 255 : Rat) * 255 = byte := by field_simp
  have same : (UInt8.ofNat byte).toNat = byte := UInt8.toNat_ofNat_of_lt' small
  rw [byteOfUnit, Rational.clamp_of_mem low high, scale, whole, Rational.scalarRound_natCast,
    ← same, Rational.toUInt8_toNat]

theorem toColor_fractions {r g b : Nat} (fits : r < 256 ∧ g < 256 ∧ b < 256) :
    (fractions (α := Rat) (r, g, b, 255)).toColor = ⟨.ofNat r, .ofNat g, .ofNat b, 255⟩ := by
  have full : Scalar.clamp 0 1 (((255 : Nat) : Rat) / 255) = 1 := by
    rw [Rational.clamp_of_mem] <;> norm_num
  have alpha : byteOfUnit (1 : Rat) = 255 := by decide +kernel
  have channel {byte : Nat} (small : byte < 256) :
      byteOfUnit (Scalar.clamp 0 1 (byte / 255 : Rat) * 1) = .ofNat byte := by
    have fits : (byte : Rat) ≤ 255 := by exact_mod_cast Nat.le_of_lt_succ small
    rw [Rational.clamp_of_mem (by positivity) (div_le_one_of_le₀ fits (by norm_num)), mul_one]
    apply UInt8.toNat_inj.mp
    rw [toNat_byteOfUnit small, UInt8.toNat_ofNat_of_lt' small]
  obtain ⟨red, green, blue⟩ := fits
  simp only [Channels.toColor, fractions_rat, ofUnit, full, alpha, channel red, channel green,
    channel blue]

/-- A text with a plus sign in front of a digit, in three or four pairs after the number sign. -/
def Signed (cs : List Char) : Prop :=
  ∃ ds bytes, cs = '#' :: ds ∧ Writes TwoCharacters ds bytes ∧ '+' ∈ ds

structure ReadAsWritten (s : String) : Prop where
  /-- It is a colour exactly when, without the blanks around it, it is a name or writes bytes after
  the number sign. -/
  read : ∀ (α : Type) [Scalar α], (read? α (some (.text s))).isSome = true ↔
    String.ofList (Text.trim s.toList) ∈ names ∨
      ∃ ds bytes, Text.trim s.toList = '#' :: ds ∧ Writes TwoCharacters ds bytes
  /-- Names and three, four, six or eight digits are what is read, exactly when it is not one of the
  texts with a plus sign. -/
  digits : ∀ (α : Type) [Scalar α], ((read? α (some (.text s))).isSome = true ↔
      String.ofList (Text.trim s.toList) ∈ names ∨
        ∃ ds, Text.trim s.toList = '#' :: ds ∧ HexDigits ds) ↔
    ¬Signed (Text.trim s.toList)
  /-- In exact numbers the channels are the bytes that are written. -/
  channels : ∀ ds r g b a, Text.trim s.toList = '#' :: ds → Writes TwoCharacters ds (r, g, b, a) →
    channels? (.text s) = some (⟨r / 255, g / 255, b / 255, a / 255⟩ : Channels Rat)
  /-- Under full alpha the colour has just these bytes. -/
  solid : ∀ ds r g b, Text.trim s.toList = '#' :: ds → Writes TwoCharacters ds (r, g, b, 255) →
    (r < 256 ∧ g < 256 ∧ b < 256) ∧
      read? Rat (some (.text s)) = some ⟨.ofNat r, .ofNat g, .ofNat b, 255⟩

/-- Every text is read as it is written. -/
theorem readAsWritten (s : String) : ReadAsWritten s := by
  have accepted (α : Type) [Scalar α] : (read? α (some (.text s))).isSome = true ↔
      String.ofList (Text.trim s.toList) ∈ names ∨
        ∃ ds bytes, Text.trim s.toList = '#' :: ds ∧ Writes TwoCharacters ds bytes := by
    rw [read?_text, Option.isSome_map, isSome_ofText?]
  refine ⟨accepted, ?_, ?_, ?_⟩
  · intro α _
    rw [accepted]
    constructor
    · rintro same ⟨ds, bytes, eq, written, sign⟩
      rcases same.mp (.inr ⟨ds, bytes, eq, written⟩) with name | ⟨ds', eq', -, digits⟩
      · rw [eq, ← isSome_named? (α := α), named?_cons_eq_none] at name
        cases name
      · obtain rfl : ds = ds' := List.tail_eq_of_cons_eq (eq.symm.trans eq')
        obtain ⟨n, digit⟩ := digits '+' sign
        exact not_digit_plus n digit
    · intro unsigned
      refine or_congr_right ⟨?_, ?_⟩
      · rintro ⟨ds, bytes, eq, written⟩
        have absent : '+' ∉ ds := fun sign => unsigned ⟨ds, bytes, eq, written, sign⟩
        exact ⟨ds, eq, hexDigits_iff.mpr ⟨bytes, written.of_not_mem absent⟩⟩
      · rintro ⟨ds, eq, digits⟩
        obtain ⟨bytes, written⟩ := hexDigits_iff.mp digits
        exact ⟨ds, bytes, eq, written.mono fun _ _ _ => .inl⟩
  · intro ds r g b a eq written
    rw [channels?_text, ofText?_eq_fractions eq written, fractions_rat]
  · intro ds r g b eq written
    have fits := written.lt
    refine ⟨fits, ?_⟩
    rw [read?_text, ofText?_eq_fractions eq written, Option.map_some, toColor_fractions fits]

/-- A plus sign is read in place of a digit, although not in place of two. -/
theorem sign_read : read? Rat (some (.text "#+1+2+3")) = some ⟨1, 2, 3, 255⟩ ∧
    ¬(String.ofList (Text.trim "#+1+2+3".toList) ∈ names ∨
      ∃ ds, Text.trim "#+1+2+3".toList = '#' :: ds ∧ HexDigits ds) ∧
    read? Rat (some (.text "#+12")) = none := by
  refine ⟨by decide +kernel, ?_, by decide +kernel⟩
  rintro (name | ⟨ds, eq, -, digits⟩)
  · exact absurd name (by decide)
  · obtain rfl : "+1+2+3".toList = ds := List.tail_eq_of_cons_eq eq
    obtain ⟨n, digit⟩ := digits '+' (by decide)
    exact not_digit_plus n digit

end LayerTree.Color
