import AiStudio.Data.Framing
import AiStudio.Data.Json
import Std.Data.String.ToInt

/-!
# The text of a JSON value

Embeds `json.dumps(value, sort_keys=True, default=str)` of Python. `Json.canonical`
sorts the keys and replaces every foreign leaf by its `str`; `Json.render` writes the
canonical value down. The text determines the canonical value (`render_inj`), so two
values have one text exactly when they agree up to key order and the `str` of their
foreign leaves.
-/

set_option autoImplicit false

namespace AiStudio.Data

/-! ## Characters -/

/-- The value of a lowercase hexadecimal digit. -/
def hexValue (c : Char) : Nat :=
  if c.toNat ≤ '9'.toNat then c.toNat - '0'.toNat else c.toNat - 'a'.toNat + 10

/-- `\uXXXX`. -/
def unicodeEscape (n : Nat) : List Char :=
  ['\\', 'u', Nat.digitChar (n / 4096), Nat.digitChar (n / 256 % 16),
    Nat.digitChar (n / 16 % 16), Nat.digitChar (n % 16)]

/-- A character inside a string literal, with `ensure_ascii`: a character outside the
basic plane is written as its surrogate pair. -/
def escape (c : Char) : List Char :=
  if c = '"' then ['\\', '"']
  else if c = '\\' then ['\\', '\\']
  else if c = '\n' then ['\\', 'n']
  else if c = '\r' then ['\\', 'r']
  else if c = '\t' then ['\\', 't']
  else if c = '\x0c' then ['\\', 'f']
  else if c = '\x08' then ['\\', 'b']
  else if ' ' ≤ c ∧ c ≤ '~' then [c]
  else if c.toNat < 0x10000 then unicodeEscape c.toNat
  else
    unicodeEscape (0xD800 + (c.toNat - 0x10000) / 0x400) ++
      unicodeEscape (0xDC00 + (c.toNat - 0x10000) % 0x400)

/-- Read a code unit of four hexadecimal digits. -/
def readUnit (a b c d : Char) : Nat :=
  hexValue a * 4096 + hexValue b * 256 + hexValue c * 16 + hexValue d

/-- Read one character of a string literal. -/
def readChar : List Char → Option (Char × List Char)
  | '\\' :: 'u' :: a :: b :: c :: d :: r =>
      let n := readUnit a b c d
      if 0xD800 ≤ n ∧ n < 0xDC00 then
        match r with
        | '\\' :: 'u' :: a' :: b' :: c' :: d' :: r =>
            some (Char.ofNat (0x10000 + (n - 0xD800) * 0x400 + (readUnit a' b' c' d' - 0xDC00)), r)
        | _ => none
      else some (Char.ofNat n, r)
  | '\\' :: 'n' :: r => some ('\n', r)
  | '\\' :: 'r' :: r => some ('\r', r)
  | '\\' :: 't' :: r => some ('\t', r)
  | '\\' :: 'f' :: r => some ('\x0c', r)
  | '\\' :: 'b' :: r => some ('\x08', r)
  | '\\' :: c :: r => some (c, r)
  | c :: r => some (c, r)
  | [] => none

theorem hexValue_digitChar {n : Nat} (h : n < 16) : hexValue (Nat.digitChar n) = n := by
  revert n
  decide

/-- The four digits of a code unit give it back. -/
theorem readUnit_digits {n : Nat} (h : n < 0x10000) :
    readUnit (Nat.digitChar (n / 4096)) (Nat.digitChar (n / 256 % 16))
      (Nat.digitChar (n / 16 % 16)) (Nat.digitChar (n % 16)) = n := by
  rw [readUnit, hexValue_digitChar (by omega), hexValue_digitChar (by omega),
    hexValue_digitChar (by omega), hexValue_digitChar (by omega)]
  omega

/-- Reading a code unit that is no high surrogate. -/
theorem readChar_unicodeEscape {n : Nat} (hn : n < 0x10000)
    (hbmp : ¬ (0xD800 ≤ n ∧ n < 0xDC00)) (r : List Char) :
    readChar (unicodeEscape n ++ r) = some (Char.ofNat n, r) := by
  simp only [unicodeEscape, List.cons_append, List.nil_append, readChar, readUnit_digits hn]
  rw [if_neg hbmp]

/-- Reading a surrogate pair. -/
theorem readChar_surrogates {hi lo : Nat} (hhi : 0xD800 ≤ hi) (hhi' : hi < 0xDC00)
    (hlo : 0xDC00 ≤ lo) (hlo' : lo < 0xE000) (r : List Char) :
    readChar (unicodeEscape hi ++ (unicodeEscape lo ++ r)) =
      some (Char.ofNat (0x10000 + (hi - 0xD800) * 0x400 + (lo - 0xDC00)), r) := by
  have hhi16 : hi < 0x10000 := by omega
  have hlo16 : lo < 0x10000 := by omega
  simp only [unicodeEscape, List.cons_append, List.nil_append, readChar,
    readUnit_digits hhi16, readUnit_digits hlo16]
  rw [if_pos ⟨hhi, hhi'⟩]

/-- **Reading undoes escaping.** -/
theorem readChar_escape (c : Char) (r : List Char) : readChar (escape c ++ r) = some (c, r) := by
  by_cases hquote : c = '"'
  · subst hquote; rfl
  by_cases hslash : c = '\\'
  · subst hslash; rfl
  by_cases hn : c = '\n'
  · subst hn; rfl
  by_cases hr : c = '\r'
  · subst hr; rfl
  by_cases ht : c = '\t'
  · subst ht; rfl
  by_cases hf : c = '\x0c'
  · subst hf; rfl
  by_cases hb : c = '\x08'
  · subst hb; rfl
  rw [escape, if_neg hquote, if_neg hslash, if_neg hn, if_neg hr, if_neg ht, if_neg hf,
    if_neg hb]
  by_cases hplain : ' ' ≤ c ∧ c ≤ '~'
  · rw [if_pos hplain]
    simp [readChar, hslash]
  rw [if_neg hplain]
  have hrange : c.toNat < 0xD800 ∨ 0xDFFF < c.toNat ∧ c.toNat < 0x110000 := c.valid
  by_cases hbasic : c.toNat < 0x10000
  · rw [if_pos hbasic, readChar_unicodeEscape hbasic (by omega), Char.ofNat_toNat]
  · rw [if_neg hbasic, List.append_assoc,
      readChar_surrogates (by omega) (by omega) (by omega) (by omega)]
    have hn : 0x10000 + (0xD800 + (c.toNat - 0x10000) / 0x400 - 0xD800) * 0x400 +
        (0xDC00 + (c.toNat - 0x10000) % 0x400 - 0xDC00) = c.toNat := by omega
    rw [hn, Char.ofNat_toNat]

/-- An escape never begins with the quote that ends a literal. -/
theorem escape_eq_cons (c : Char) : ∃ h t, escape c = h :: t ∧ h ≠ '"' := by
  have hslash : ∀ t, ∃ h t', '\\' :: t = h :: t' ∧ h ≠ '"' :=
    fun t => ⟨'\\', t, rfl, by decide⟩
  -- every branch but the plain one is an escape sequence
  unfold escape
  by_cases hquote : c = '"'
  · rw [if_pos hquote]
    exact hslash _
  · rw [if_neg hquote]
    iterate 6
      refine iteInduction (motive := fun l => ∃ h t, l = h :: t ∧ h ≠ '"') (fun _ => hslash _)
        fun _ => ?_
    apply iteInduction (motive := fun l => ∃ h t, l = h :: t ∧ h ≠ '"')
    · exact fun _ => ⟨c, [], rfl, hquote⟩
    · intro _
      apply iteInduction (motive := fun l => ∃ h t, l = h :: t ∧ h ≠ '"')
      · exact fun _ => hslash _
      · exact fun _ => hslash _

/-! ## Values -/

/-- A string literal. -/
def renderString (s : String) : List Char := '"' :: (s.toList.flatMap escape ++ ['"'])

namespace Json

mutual

/-- The text of a value, with the separators of `json.dumps`. -/
def render : Json Empty → List Char
  | .null => "null".toList
  | .bool true => "true".toList
  | .bool false => "false".toList
  | .int n => n.repr.toList
  | .float x => x.text
  | .str s => renderString s
  | .arr [] => ['[', ']']
  | .arr (x :: xs) => '[' :: (render x ++ renderItems xs)
  | .obj [] => ['{', '}']
  | .obj ((k, v) :: fs) => '{' :: (renderString k ++ ':' :: ' ' :: (render v ++ renderFields fs))
  | .foreign x => nomatch x

/-- What follows an item of an array. -/
def renderItems : List (Json Empty) → List Char
  | [] => [']']
  | x :: xs => ',' :: ' ' :: (render x ++ renderItems xs)

/-- What follows a field of an object. -/
def renderFields : List (String × Json Empty) → List Char
  | [] => ['}']
  | (k, v) :: fs => ',' :: ' ' :: (renderString k ++ ':' :: ' ' :: (render v ++ renderFields fs))

end

mutual

/-- The value with sorted keys, every foreign leaf under its `str`. -/
def canonical {ω : Type} (str : ω → String) : Json ω → Json Empty
  | .null => .null
  | .bool b => .bool b
  | .int n => .int n
  | .float x => .float x
  | .str s => .str s
  | .arr xs => .arr (canonicalItems str xs)
  | .obj fs => .obj ((canonicalFields str fs).insertionSort (·.1 ≤ ·.1))
  | .foreign x => .str (str x)

/-- The items of an array, each canonical. -/
def canonicalItems {ω : Type} (str : ω → String) : List (Json ω) → List (Json Empty)
  | [] => []
  | x :: xs => canonical str x :: canonicalItems str xs

/-- The fields of an object, each canonical, in their order. -/
def canonicalFields {ω : Type} (str : ω → String) :
    List (String × Json ω) → List (String × Json Empty)
  | [] => []
  | (k, v) :: fs => (k, canonical str v) :: canonicalFields str fs

end

/-- `json.dumps(value, sort_keys=True, default=str)`. -/
def dumps {ω : Type} (str : ω → String) (value : Json ω) : String :=
  String.ofList (render (canonical str value))

end Json

/-! ## The text determines the value -/

/-- A string literal ends at its closing quote. -/
theorem escapes_cut {x y r s : List Char}
    (h : x.flatMap escape ++ '"' :: r = y.flatMap escape ++ '"' :: s) : x = y ∧ r = s := by
  induction x generalizing y with
  | nil =>
      cases y with
      | nil => exact ⟨rfl, (List.cons.inj h).2⟩
      | cons d y =>
          obtain ⟨c, t, hd, hc⟩ := escape_eq_cons d
          rw [List.flatMap_cons, hd] at h
          exact absurd (List.cons.inj h).1.symm hc
  | cons c x ih =>
      cases y with
      | nil =>
          obtain ⟨d, t, hc, hd⟩ := escape_eq_cons c
          rw [List.flatMap_cons, hc] at h
          exact absurd (List.cons.inj h).1 hd
      | cons d y =>
          rw [List.flatMap_cons, List.flatMap_cons, List.append_assoc, List.append_assoc] at h
          have hread := congrArg readChar h
          rw [readChar_escape, readChar_escape] at hread
          obtain ⟨rfl, hrest⟩ := Prod.mk.inj (Option.some.inj hread)
          obtain ⟨rfl, hrs⟩ := ih hrest
          exact ⟨rfl, hrs⟩

theorem renderString_cut {a b : String} {r s : List Char}
    (h : renderString a ++ r = renderString b ++ s) : a = b ∧ r = s := by
  simp only [renderString, List.cons_append, List.append_assoc, List.nil_append] at h
  obtain ⟨hab, hrs⟩ := escapes_cut (List.cons.inj h).2
  exact ⟨String.toList_injective hab, hrs⟩

namespace Json

/-- The kind of a value by the first character of its text. -/
def kindOfChar (c : Char) : Nat :=
  if c = 'n' then 0 else if c = 't' then 1 else if c = 'f' then 2 else if c = '"' then 3
  else if c = '[' then 4 else if c = '{' then 5
  else if "-0123456789NI".toList.contains c then 6 else 7

/-- The kind of a value. -/
def kind : Json Empty → Nat
  | .null => 0
  | .bool true => 1
  | .bool false => 2
  | .str _ => 3
  | .arr _ => 4
  | .obj _ => 5
  | .int _ => 6
  | .float _ => 6
  | .foreign x => nomatch x

theorem digit_mem {c : Char} (h : c.isDigit = true) : c ∈ "0123456789".toList := by
  obtain ⟨hlo, hhi⟩ := Char.isDigit_iff_toNat.1 h
  have hall : ∀ n, n < 58 → 48 ≤ n → Char.ofNat n ∈ "0123456789".toList := by decide
  have hc := hall c.toNat (Nat.lt_succ_of_le hhi) hlo
  rwa [Char.ofNat_toNat] at hc

/-- The text of an integer is a sign and digits. -/
theorem mem_repr {n : Int} {c : Char} (h : c ∈ n.repr.toList) : c ∈ "-0123456789".toList := by
  have hdigits : ∀ m : Nat, c ∈ m.repr.toList → c ∈ "-0123456789".toList := fun m hm => by
    rw [Nat.toList_repr] at hm
    exact List.mem_cons_of_mem _
      (digit_mem (Nat.isDigit_of_mem_toDigits (by decide) (by decide) hm))
  rw [Int.repr_eq_if] at h
  split at h
  · exact hdigits _ h
  · rw [String.toList_append] at h
    rcases List.mem_append.1 h with hc | hc
    · obtain rfl : c = '-' := by simpa using hc
      decide
    · exact hdigits _ hc

theorem repr_ne_nil (n : Int) : n.repr.toList ≠ [] := by
  rw [Int.repr_eq_if]
  split
  · simp
  · simp

/-- Both kinds of number are written in the characters of a float. -/
theorem isFloatChar_of_number {a : Json Empty} (ha : a.kind = 6) {c : Char}
    (h : c ∈ render a) : isFloatChar c = true := by
  have hsub : ∀ c ∈ "-0123456789".toList, isFloatChar c = true :=
      List.all_eq_true.1 (by decide)
  cases a with
  | int n =>
      rw [render] at h
      exact hsub c (mem_repr h)
  | float x =>
      have hrepr := x.isRepr
      simp only [isFloatRepr, Bool.and_eq_true, List.all_eq_true] at hrepr
      rw [render] at h
      exact hrepr.1.1 c h
  | bool b => cases b <;> cases ha
  | _ => exact nomatch ha

/-- An integer does not read as a float. -/
theorem repr_ne_float (n : Int) (x : FloatRepr) : n.repr.toList ≠ x.text := by
  intro h
  have hrepr := x.isRepr
  simp only [isFloatRepr, Bool.and_eq_true, List.any_eq_true] at hrepr
  obtain ⟨c, hc, hmark⟩ := hrepr.2
  have hsub : ∀ c ∈ "-0123456789".toList, ".eNI".toList.contains c = false := fun c hc => by
    simpa using List.all_eq_true.1
      (by decide : ("-0123456789".toList.all fun c => !".eNI".toList.contains c) = true) c hc
  rw [hsub c (mem_repr (by rwa [h]))] at hmark
  cases hmark

/-- Numbers are determined by their text. -/
theorem number_inj {a b : Json Empty} (ha : a.kind = 6) (hb : b.kind = 6)
    (h : render a = render b) : a = b := by
  cases a with
  | int n =>
      cases b with
      | int m =>
          have hrepr : n.repr = m.repr := String.toList_injective (by simpa [render] using h)
          rw [Int.repr_injective hrepr]
      | float y => exact absurd (by simpa [render] using h) (repr_ne_float n y)
      | bool b => cases b <;> cases hb
      | _ => exact nomatch hb
  | float x =>
      cases b with
      | int m => exact absurd (by simpa [render] using h.symm) (repr_ne_float m x)
      | float y =>
          obtain ⟨text, isRepr⟩ := x
          obtain ⟨text', isRepr'⟩ := y
          obtain rfl : text = text' := by simpa [render] using h
          rfl
      | bool b => cases b <;> cases hb
      | _ => exact nomatch hb
  | bool b => cases b <;> cases ha
  | _ => exact nomatch ha

/-- The first character of a text tells the kind. -/
theorem render_eq_cons (a : Json Empty) : ∃ h t, render a = h :: t ∧ kindOfChar h = a.kind := by
  have hnumber : ∀ c ∈ "0123456789-NI".toList, kindOfChar c = 6 := fun c hc => by
    simpa using List.all_eq_true.1
      (by decide : ("0123456789-NI".toList.all fun c => kindOfChar c = 6) = true) c hc
  cases a with
  | null => exact ⟨_, _, rfl, rfl⟩
  | bool b => cases b <;> exact ⟨_, _, rfl, rfl⟩
  | int n =>
      obtain ⟨h, t, hht⟩ := List.exists_cons_of_ne_nil (repr_ne_nil n)
      have hmem := mem_repr (n := n) (c := h) (by simp [hht])
      have hsub : ∀ c ∈ "-0123456789".toList, kindOfChar c = 6 := fun c hc => by
        simpa using List.all_eq_true.1
          (by decide : ("-0123456789".toList.all fun c => kindOfChar c = 6) = true) c hc
      exact ⟨h, t, by rw [render, hht], hsub h hmem⟩
  | float x =>
      have hrepr := x.isRepr
      simp only [isFloatRepr, Bool.and_eq_true, Option.any_eq_true] at hrepr
      obtain ⟨h, hhead, hmem⟩ := hrepr.1.2
      obtain ⟨t, ht⟩ := List.head?_eq_some_iff.1 hhead
      exact ⟨h, t, by rw [render, ht], hnumber h (by simpa using hmem)⟩
  | str s => exact ⟨_, _, rfl, rfl⟩
  | arr xs => cases xs <;> exact ⟨_, _, rfl, rfl⟩
  | obj fs =>
      cases fs with
      | nil => exact ⟨_, _, rfl, rfl⟩
      | cons f fs => exact ⟨_, _, rfl, rfl⟩
  | foreign x => cases x

/-- A value does not begin with a closing bracket. -/
theorem kind_ne_closing {a : Json Empty} {c : Char} (h : kindOfChar c = a.kind) :
    c ≠ ']' ∧ c ≠ '}' := by
  have hlt : a.kind < 7 := by
    cases a with
    | bool b => cases b <;> simp [kind]
    | foreign x => cases x
    | _ => simp [kind]
  rw [← h] at hlt
  refine ⟨?_, ?_⟩
  · rintro rfl
    exact absurd hlt (by decide)
  · rintro rfl
    exact absurd hlt (by decide)

theorem kind_eq {a b : Json Empty} {r s : List Char} (h : render a ++ r = render b ++ s) :
    a.kind = b.kind := by
  obtain ⟨c, t, ha, hc⟩ := render_eq_cons a
  obtain ⟨d, u, hb, hd⟩ := render_eq_cons b
  rw [ha, hb] at h
  rw [← hc, ← hd, (List.cons.inj h).1]

theorem endsClass_renderItems (xs : List (Json Empty)) (r : List Char) :
    EndsClass isFloatChar (renderItems xs ++ r) := by
  cases xs with
  | nil => intro c hc; obtain rfl : ']' = c := by simpa [renderItems] using hc
           decide
  | cons x xs => intro c hc; obtain rfl : ',' = c := by simpa [renderItems] using hc
                 decide

theorem endsClass_renderFields (fs : List (String × Json Empty)) (r : List Char) :
    EndsClass isFloatChar (renderFields fs ++ r) := by
  cases fs with
  | nil => intro c hc; obtain rfl : '}' = c := by simpa [renderFields] using hc
           decide
  | cons f fs => intro c hc; obtain rfl : ',' = c := by simpa [renderFields] using hc
                 decide

mutual

/-- **A text that no number goes on with determines the value before it.** -/
theorem render_cut : ∀ (a b : Json Empty) {r s : List Char}, EndsClass isFloatChar r →
    EndsClass isFloatChar s → render a ++ r = render b ++ s → a = b ∧ r = s
  | .null, b, r, s, _, _, h => by
      have hkind := kind_eq h
      cases b with
      | null => exact ⟨rfl, List.append_cancel_left h⟩
      | bool b => cases b <;> cases hkind
      | foreign x => cases x
      | _ => cases hkind
  | .bool a, b, r, s, _, _, h => by
      have hkind := kind_eq h
      cases b with
      | bool b =>
          match a, b with
          | true, true => exact ⟨rfl, List.append_cancel_left h⟩
          | false, false => exact ⟨rfl, List.append_cancel_left h⟩
          | true, false => cases hkind
          | false, true => cases hkind
      | foreign x => cases x
      | _ => cases a <;> cases hkind
  | .int n, b, r, s, hr, hs, h => by
      have hb : b.kind = 6 := (kind_eq h).symm
      obtain ⟨hab, hrs⟩ := cut_class (fun c => isFloatChar_of_number (a := .int n) rfl)
        (fun c => isFloatChar_of_number hb) hr hs h
      exact ⟨number_inj rfl hb hab, hrs⟩
  | .float x, b, r, s, hr, hs, h => by
      have hb : b.kind = 6 := (kind_eq h).symm
      obtain ⟨hab, hrs⟩ := cut_class (fun c => isFloatChar_of_number (a := .float x) rfl)
        (fun c => isFloatChar_of_number hb) hr hs h
      exact ⟨number_inj rfl hb hab, hrs⟩
  | .str a, b, r, s, _, _, h => by
      have hkind := kind_eq h
      cases b with
      | str b =>
          obtain ⟨rfl, hrs⟩ := renderString_cut (by simpa only [render] using h)
          exact ⟨rfl, hrs⟩
      | bool b => cases b <;> cases hkind
      | foreign x => cases x
      | _ => cases hkind
  | .arr xs, b, r, s, _, _, h => by
      have hkind := kind_eq h
      cases b with
      | arr ys =>
          match xs, ys with
          | [], [] => simpa [render] using h
          | [], y :: ys =>
              obtain ⟨c, t, hy, hc⟩ := render_eq_cons y
              simp only [render, hy, List.cons_append, List.cons.injEq, true_and] at h
              exact absurd h.1.symm (kind_ne_closing hc).1
          | x :: xs, [] =>
              obtain ⟨c, t, hx, hc⟩ := render_eq_cons x
              simp only [render, hx, List.cons_append, List.cons.injEq, true_and] at h
              exact absurd h.1 (kind_ne_closing hc).1
          | x :: xs, y :: ys =>
              simp only [render, List.cons_append, List.append_assoc, List.cons.injEq,
                true_and] at h
              obtain ⟨rfl, hrest⟩ := render_cut x y (endsClass_renderItems xs r)
                (endsClass_renderItems ys s) h
              obtain ⟨rfl, hrs⟩ := renderItems_cut xs ys hrest
              exact ⟨rfl, hrs⟩
      | bool b => cases b <;> cases hkind
      | foreign x => cases x
      | _ => cases hkind
  | .obj fs, b, r, s, _, _, h => by
      have hkind := kind_eq h
      cases b with
      | obj gs =>
          match fs, gs with
          | [], [] => simpa [render] using h
          | [], (k, v) :: gs => simp [render, renderString] at h
          | (k, v) :: fs, [] => simp [render, renderString] at h
          | (k, v) :: fs, (l, w) :: gs =>
              simp only [render, List.cons_append, List.append_assoc, List.cons.injEq,
                true_and] at h
              obtain ⟨rfl, hfield⟩ := renderString_cut h
              simp only [List.cons.injEq, true_and] at hfield
              obtain ⟨rfl, hrest⟩ := render_cut v w (endsClass_renderFields fs r)
                (endsClass_renderFields gs s) hfield
              obtain ⟨rfl, hrs⟩ := renderFields_cut fs gs hrest
              exact ⟨rfl, hrs⟩
      | bool b => cases b <;> cases hkind
      | foreign x => cases x
      | _ => cases hkind
  | .foreign x, _, _, _, _, _, _ => nomatch x

theorem renderItems_cut : ∀ (xs ys : List (Json Empty)) {r s : List Char},
    renderItems xs ++ r = renderItems ys ++ s → xs = ys ∧ r = s
  | [], [], r, s, h => by simpa [renderItems] using h
  | [], y :: ys, r, s, h => by simp [renderItems] at h
  | x :: xs, [], r, s, h => by simp [renderItems] at h
  | x :: xs, y :: ys, r, s, h => by
      simp only [renderItems, List.cons_append, List.append_assoc, List.cons.injEq,
        true_and] at h
      obtain ⟨rfl, hrest⟩ := render_cut x y (endsClass_renderItems xs r)
        (endsClass_renderItems ys s) h
      obtain ⟨rfl, hrs⟩ := renderItems_cut xs ys hrest
      exact ⟨rfl, hrs⟩

theorem renderFields_cut : ∀ (fs gs : List (String × Json Empty)) {r s : List Char},
    renderFields fs ++ r = renderFields gs ++ s → fs = gs ∧ r = s
  | [], [], r, s, h => by simpa [renderFields] using h
  | [], (k, v) :: gs, r, s, h => by simp [renderFields] at h
  | (k, v) :: fs, [], r, s, h => by simp [renderFields] at h
  | (k, v) :: fs, (l, w) :: gs, r, s, h => by
      simp only [renderFields, List.cons_append, List.append_assoc, List.cons.injEq,
        true_and] at h
      obtain ⟨rfl, hfield⟩ := renderString_cut h
      simp only [List.cons.injEq, true_and] at hfield
      obtain ⟨rfl, hrest⟩ := render_cut v w (endsClass_renderFields fs r)
        (endsClass_renderFields gs s) hfield
      obtain ⟨rfl, hrs⟩ := renderFields_cut fs gs hrest
      exact ⟨rfl, hrs⟩

end

/-- **The text of a value determines it.** -/
theorem render_inj {a b : Json Empty} (h : render a = render b) : a = b :=
  (render_cut a b (r := []) (s := []) (by simp [EndsClass]) (by simp [EndsClass])
    (by rw [h])).1

/-- **Two values have one text exactly when they have one canonical form.** -/
theorem dumps_eq_iff {ω : Type} (str : ω → String) (a b : Json ω) :
    dumps str a = dumps str b ↔ canonical str a = canonical str b := by
  refine ⟨fun h => render_inj ?_, fun h => by rw [dumps, dumps, h]⟩
  simpa [dumps] using congrArg String.toList h

/-- A value that is not JSON has the text of its `str`. -/
theorem dumps_foreign {ω : Type} (str : ω → String) (x : ω) :
    dumps str (.foreign x) = dumps str (.str (str x)) := rfl

end Json

end AiStudio.Data
