import AiStudio.Data.Conninfo

/-!
# URLs

How Python takes a URL apart. What it refuses about a network location beyond brackets that do not
match, an address in brackets that is none or a character that would normalise to a delimiter, is
an argument.

- `urlsplit_path`: the path of a URL that begins with a scheme and a network location.
-/

set_option autoImplicit false

namespace AiStudio.Data.Url

/-- The parts of a URL. -/
structure SplitResult where
  scheme : List Char
  netloc : List Char
  path : List Char
  query : List Char
  fragment : List Char

/-- What is stripped off the beginning of a URL. -/
def isControlOrSpace (c : Char) : Bool := c.toNat ≤ 32

/-- All characters but those that are dropped wherever they stand. -/
def isKept (c : Char) : Bool := c ≠ '\t' && c ≠ '\r' && c ≠ '\n'

/-- The characters of a scheme. -/
def isSchemeChar (c : Char) : Bool := c.isAlphanum || c = '+' || c = '-' || c = '.'

/-- What ends a network location. -/
def isDelimiter (c : Char) : Bool := c = '/' || c = '?' || c = '#'

/-- The scheme, in small letters, and what is behind its colon. -/
def splitScheme (url : List Char) : List Char × List Char :=
  let scheme := url.takeWhile (· ≠ ':')
  match url.dropWhile (· ≠ ':') with
  | [] => ([], url)
  | _ :: rest =>
      if scheme.head?.any Char.isAlpha && scheme.all isSchemeChar then
        (scheme.map Char.toLower, rest)
      else ([], url)

/-- The network location behind two slashes, and what is behind it. -/
def splitNetloc (url : List Char) : List Char × List Char :=
  match url with
  | '/' :: '/' :: rest => (rest.takeWhile (!isDelimiter ·), rest.dropWhile (!isDelimiter ·))
  | _ => ([], url)

/-- What stands before the separator, and what is behind it. -/
def cut (separator : Char) (url : List Char) : List Char × List Char :=
  (url.takeWhile (· ≠ separator), (url.dropWhile (· ≠ separator)).drop 1)

section Split

variable (refused : List Char → Bool)

/-- `urlsplit(url)`, behind the scheme. -/
def splitRest (scheme url : List Char) : Option SplitResult :=
  let (netloc, url) := splitNetloc url
  if netloc.contains '[' != netloc.contains ']' || (!netloc.isEmpty && refused netloc) then none
  else
    let (url, fragment) := cut '#' url
    let (path, query) := cut '?' url
    some { scheme, netloc, path, query, fragment }

/-- `urlsplit(url)`. -/
def urlsplit (url : List Char) : Option SplitResult :=
  let (scheme, rest) := splitScheme ((url.dropWhile isControlOrSpace).filter isKept)
  splitRest refused scheme rest

end Split

/-! ## Quoting -/

/-- The characters that are never quoted. -/
def isUnreserved (b : UInt8) : Bool :=
  let c := Char.ofNat b.toNat
  c.isAlphanum || c = '_' || c = '.' || c = '-' || c = '~'

/-- A hexadecimal digit. -/
def hexDigit (n : Nat) : Char :=
  if n < 10 then Char.ofNat ('0'.toNat + n) else Char.ofNat ('A'.toNat + (n - 10))

/-- `quote(s, safe='')`. -/
def quoteAll (s : String) : String :=
  String.ofList ((Conninfo.utf8 s.toList).flatMap fun b =>
    if isUnreserved b then [Char.ofNat b.toNat]
    else ['%', hexDigit (b.toNat / 16), hexDigit (b.toNat % 16)])

/-! ## The path -/

section Path

variable {refused : List Char → Bool} {scheme network more rest : List Char}

theorem of_not_isKept {c : Char} (h : isKept c = false) : c = '\t' ∨ c = '\r' ∨ c = '\n' := by
  simpa only [isKept, Bool.and_eq_false_iff, decide_eq_false_iff_not, ne_eq, not_not,
    or_assoc] using h

theorem isDelimiter_iff {c : Char} : isDelimiter c = true ↔ c = '/' ∨ c = '?' ∨ c = '#' := by
  simp only [isDelimiter, Bool.or_eq_true, decide_eq_true_eq, or_assoc]

/-- What is dropped ends no network location. -/
theorem takeWhile_kept (p : Char → Bool) (hp : ∀ c, isKept c = false → p c = true)
    (text : List Char) :
    (text.filter isKept).takeWhile p = (text.takeWhile p).filter isKept ∧
      (text.filter isKept).dropWhile p = (text.dropWhile p).filter isKept := by
  have hfun : (fun c => !isKept c || p c) = p := by
    funext c
    cases hc : isKept c with
    | true => rfl
    | false => exact (hp c hc).symm
  rw [List.takeWhile_filter, List.dropWhile_filter, hfun]
  exact ⟨rfl, rfl⟩

theorem isDelimiter_of_not_isKept (c : Char) (h : isKept c = false) : (!isDelimiter c) = true := by
  rcases of_not_isKept h with rfl | rfl | rfl
  · rfl
  · rfl
  · rfl

/-- A scheme of a URL, written in letters. -/
structure IsScheme (scheme : List Char) : Prop where
  head : scheme.head?.any Char.isAlpha = true
  chars : ∀ c ∈ scheme, isSchemeChar c = true

theorem IsScheme.splitScheme_eq (h : IsScheme scheme) (rest : List Char) :
    splitScheme (scheme ++ ':' :: rest) = (scheme.map Char.toLower, rest) := by
  have hall : ∀ c ∈ scheme, decide (c ≠ ':') = true := by
    intro c hc
    refine decide_eq_true ?_
    rintro rfl
    exact absurd (h.chars _ hc) (by decide)
  have htake : (scheme ++ ':' :: rest).takeWhile (· ≠ ':') = scheme := by
    rw [List.takeWhile_append_of_pos hall]
    simp
  have hdrop : (scheme ++ ':' :: rest).dropWhile (· ≠ ':') = ':' :: rest := by
    rw [List.dropWhile_append_of_pos hall]
    simp
  unfold splitScheme
  rw [htake, hdrop]
  dsimp only
  rw [h.head, List.all_eq_true.mpr h.chars]
  rfl

theorem isKept_of_isSchemeChar {c : Char} (h : isSchemeChar c = true) : isKept c = true := by
  by_contra hkept
  rcases of_not_isKept (eq_false_of_ne_true hkept) with rfl | rfl | rfl
  · cases h
  · cases h
  · cases h

theorem not_isControlOrSpace_of_isAlpha {c : Char} (h : c.isAlpha = true) :
    isControlOrSpace c = false := by
  change (decide ('A'.val ≤ c.val ∧ c.val ≤ 'Z'.val) ||
    (decide ('a'.val ≤ c.val) && decide (c.val ≤ 'z'.val))) = true at h
  simp only [Bool.or_eq_true, Bool.and_eq_true, decide_eq_true_eq, UInt32.le_iff_toNat_le] at h
  have hn : 65 ≤ c.toNat := by
    rcases h with ⟨hlow, -⟩ | ⟨hlow, -⟩
    · exact hlow
    · exact le_trans (by decide) hlow
  exact decide_eq_false (by omega)

/-- A URL with a scheme and a network location is taken apart as its kept characters are. -/
theorem urlsplit_eq (h : IsScheme scheme) (rest : List Char) :
    urlsplit refused (scheme ++ "://".toList ++ rest) =
      splitRest refused (scheme.map Char.toLower) ('/' :: '/' :: rest.filter isKept) := by
  have hstrip : (scheme ++ "://".toList ++ rest).dropWhile isControlOrSpace =
      scheme ++ "://".toList ++ rest := by
    cases scheme with
    | nil => cases h.head
    | cons c scheme =>
        have hc : isControlOrSpace c = false := not_isControlOrSpace_of_isAlpha h.head
        rw [List.cons_append, List.cons_append, List.dropWhile_cons, hc]
        rfl
  have hscheme : scheme.filter isKept = scheme :=
    List.filter_eq_self.mpr fun c hc => isKept_of_isSchemeChar (h.chars c hc)
  have hkept : (scheme ++ "://".toList ++ rest).filter isKept =
      scheme ++ ':' :: ('/' :: '/' :: rest.filter isKept) := by
    rw [List.filter_append, List.filter_append, hscheme, List.append_assoc]
    rfl
  rw [urlsplit, hstrip, hkept, h.splitScheme_eq]

theorem splitRest_path {parts : SplitResult} {url : List Char}
    (h : splitRest refused scheme ('/' :: '/' :: url) = some parts) :
    parts.path = ((url.dropWhile (!isDelimiter ·)).takeWhile (· ≠ '#')).takeWhile (· ≠ '?') ∧
      ('[' ∈ url.takeWhile (!isDelimiter ·) ↔ ']' ∈ url.takeWhile (!isDelimiter ·)) := by
  rw [splitRest, splitNetloc] at h
  dsimp only at h
  split at h
  · cases h
  · rename_i hmatch
    obtain rfl := Option.some.inj h
    refine ⟨rfl, ?_⟩
    rw [Bool.or_eq_true, not_or] at hmatch
    simpa using hmatch.1

/-- The path of a URL ends at the query; brackets in the network location match. -/
theorem urlsplit_path {parts : SplitResult} (h : IsScheme scheme)
    (hnetwork : ∀ c ∈ network, isDelimiter c = false)
    (hpath : ∀ c ∈ more.takeWhile (· ≠ '?'), c ≠ '#' ∧ isKept c = true)
    (hparts : urlsplit refused (scheme ++ "://".toList ++ (network ++ '/' :: more)) = some parts) :
    parts.path = '/' :: more.takeWhile (· ≠ '?') ∧ ('[' ∈ network ↔ ']' ∈ network) := by
  rw [urlsplit_eq h] at hparts
  obtain ⟨hpath', hbrackets⟩ := splitRest_path hparts
  obtain ⟨htake, hdrop⟩ :=
    takeWhile_kept (!isDelimiter ·) isDelimiter_of_not_isKept (network ++ '/' :: more)
  have hall : ∀ c ∈ network, (!isDelimiter c) = true := fun c hc => by rw [hnetwork c hc]; rfl
  rw [List.takeWhile_append_of_pos hall, List.takeWhile_cons_of_neg (by decide),
    List.append_nil] at htake
  rw [List.dropWhile_append_of_pos hall, List.dropWhile_cons_of_neg (by decide)] at hdrop
  rw [htake] at hbrackets
  rw [hdrop] at hpath'
  refine ⟨hpath'.trans ?_, ?_⟩
  · have hkept : ('/' :: more).filter isKept = ('/' :: more.takeWhile (· ≠ '?')) ++
        (more.dropWhile (· ≠ '?')).filter isKept := by
      have hmore := List.filter_append (p := isKept) (more.takeWhile (· ≠ '?'))
        (more.dropWhile (· ≠ '?'))
      rw [List.takeWhile_append_dropWhile, List.filter_eq_self.mpr fun c hc => (hpath c hc).2]
        at hmore
      rw [List.filter_cons_of_pos rfl, hmore]
      rfl
    have hin : ∀ c ∈ '/' :: more.takeWhile (· ≠ '?'), (c ≠ '?' ∧ c ≠ '#') := by
      rintro c (_ | ⟨_, hc⟩)
      · decide
      · have hquery := List.mem_takeWhile_imp hc
        exact ⟨by simpa using hquery, (hpath c hc).1⟩
    rw [hkept, List.takeWhile_takeWhile, List.takeWhile_append_of_pos (by simpa using hin)]
    cases hquery : more.dropWhile (· ≠ '?') with
    | nil => simp
    | cons c query =>
        have hhead := List.head?_dropWhile_not (· ≠ '?') more
        rw [hquery] at hhead
        have hc : c = '?' := by simpa using hhead
        rw [hc, List.filter_cons_of_pos rfl]
        simp
  · have hmem (c : Char) (hc : isKept c = true) : c ∈ network.filter isKept ↔ c ∈ network := by
      rw [List.mem_filter, and_iff_left hc]
    rwa [hmem '[' rfl, hmem ']' rfl] at hbrackets

/-- Without a slash behind the network location there is no path. -/
theorem urlsplit_path_nil {parts : SplitResult} (h : IsScheme scheme)
    (hrest : (rest.dropWhile (!isDelimiter ·)).head? ≠ some '/')
    (hparts : urlsplit refused (scheme ++ "://".toList ++ rest) = some parts) :
    parts.path = [] := by
  rw [urlsplit_eq h] at hparts
  rw [(splitRest_path hparts).1,
    (takeWhile_kept (!isDelimiter ·) isDelimiter_of_not_isKept rest).2]
  cases hafter : rest.dropWhile (!isDelimiter ·) with
  | nil => rfl
  | cons c after =>
      have hdelim : (!isDelimiter c) = false := by
        have hhead := List.head?_dropWhile_not (!isDelimiter ·) rest
        rw [hafter] at hhead
        simpa using hhead
      rcases isDelimiter_iff.mp (by simpa using hdelim) with rfl | rfl | rfl
      · rw [hafter] at hrest
        exact absurd rfl hrest
      · rfl
      · rfl

end Path

end AiStudio.Data.Url
