import AiStudio.Data.JsonText
import AiStudio.Gateway.Dotenv

/-!
# Minting

`mint` of `gateway/client.py` over any number of calls: the secrets file keeps a map from
identities to their current tokens. A token that is minted takes the place of the one its identity
had, and a registry that is read from the file accepts exactly the secrets of current tokens.
-/

set_option autoImplicit false

namespace AiStudio.Gateway

open AiStudio.Data

/-! ## The calls -/

/-- What `mint` is called with, and the secret that it draws. -/
structure MintArgs where
  identity : String
  scopes : List String
  workstreams : List String := []
  writeEnv : Bool := true
  secret : String

/-- The entry of a call: `identity:scopes:digest[:workstreams]`. -/
def MintArgs.spec (hexdigest : String → String) (a : MintArgs) : String :=
  let spec := a.identity ++ ":" ++ String.intercalate "|" a.scopes ++ ":" ++ hexdigest a.secret
  if a.workstreams.isEmpty then spec else spec ++ ":" ++ String.intercalate "|" a.workstreams

/-- `mint`: the file it leaves, or the error it raises before it writes anything. -/
def mint (hexdigest : String → String) (file : Option String) (a : MintArgs) :
    Except TokenSpecError (Option String) := do
  let spec := a.spec hexdigest
  let _ ← parseTokenSpec spec
  if a.writeEnv then
    let existing := readDotenvValue file envTokens
    return some (writeDotenvValue file envTokens (upsertTokenSpec existing spec))
  else return file

/-- The file after some calls; a call that raises leaves it. -/
def mintAll (hexdigest : String → String) (file : Option String) (calls : List MintArgs) :
    Option String :=
  calls.foldl (fun file a => (mint hexdigest file a).toOption.getD file) file

/-- The calls that `mint` is made for. -/
structure MintArgs.WellFormed (a : MintArgs) : Prop where
  identity : isIdentifier a.identity = true
  scopes_ne : a.scopes ≠ []
  scopes : ∀ s ∈ a.scopes, (Scope.ofText? s).isSome = true
  workstreams : ∀ w ∈ a.workstreams, isIdentifier w = true

/-! ## The entry is read back -/

/-- A character of a field that needs no care: no white space and no separator of fields or of
alternatives. -/
def isFieldChar (c : Char) : Bool := !isSpace c && c ≠ ':' && c ≠ '|'

section Fields

theorem isFieldChar_of_isIdentifier {value : String} (h : isIdentifier value = true) :
    ∀ c ∈ value.toList, isFieldChar c = true := by
  have hstart {c : Char} (h : isIdentStart c = true) : isFieldChar c = true := by
    rw [isIdentStart, Bool.or_eq_true] at h
    rcases h with h | h
    · have hall : ∀ c ∈ "0123456789".toList, isFieldChar c = true := forall_mem_of_all (by decide)
      exact hall c (Json.digit_mem h)
    · have hall : ∀ c ∈ "abcdefghijklmnopqrstuvwxyz".toList, isFieldChar c = true :=
        forall_mem_of_all (by decide)
      exact hall c (by simpa using h)
  unfold isIdentifier at h
  cases hvalue : value.toList with
  | nil => simp
  | cons first rest =>
      rw [hvalue] at h
      simp only [Bool.and_eq_true, List.all_eq_true, Bool.or_eq_true, decide_eq_true_eq] at h
      obtain ⟨⟨hfirst, -⟩, hrest⟩ := h
      intro c hc
      rcases List.mem_cons.1 hc with rfl | hc
      · exact hstart hfirst
      · rcases hrest c hc with ((hc | rfl) | rfl) | rfl
        · exact hstart hc
        · decide
        · decide
        · decide

theorem isFieldChar_of_scope {s : String} (h : (Scope.ofText? s).isSome = true) :
    ∀ c ∈ s.toList, isFieldChar c = true := by
  unfold Scope.ofText? at h
  split at h
  · exact forall_mem_of_all (by decide)
  · exact forall_mem_of_all (by decide)
  · exact forall_mem_of_all (by decide)
  · exact forall_mem_of_all (by decide)
  · cases h

theorem isFieldChar_of_isDigest {digest : String} (h : isDigest digest = true) :
    ∀ c ∈ digest.toList, isFieldChar c = true := by
  rw [isDigest, Bool.and_eq_true, List.all_eq_true] at h
  have hall : ∀ c ∈ "0123456789abcdef".toList, isFieldChar c = true :=
    forall_mem_of_all (by decide)
  intro c hc
  exact hall c (by simpa [isHexDigit] using h.2 c hc)

theorem lowerDigest_of_isDigest {digest : String} (h : isDigest digest = true) :
    lowerDigest digest = digest := by
  rw [isDigest, Bool.and_eq_true, List.all_eq_true] at h
  have hall : ∀ c ∈ "0123456789abcdef".toList, c.toLower = c := forall_mem_of_all (by decide)
  have hmap : digest.toList.map Char.toLower = digest.toList := by
    refine (List.map_congr_left fun c hc => ?_).trans (List.map_id _)
    exact hall c (by simpa [isHexDigit] using h.2 c hc)
  rw [lowerDigest, hmap, String.ofList_toList]

/-- What is joined with a separator comes apart into what was joined. -/
theorem map_strip_splitOn {sep : Char} {mark : String} (hmark : mark.toList = [sep])
    {texts : List String} (hne : texts ≠ [])
    (h : ∀ s ∈ texts, ∀ c ∈ s.toList, isSpace c = false ∧ c ≠ sep) :
    ((String.intercalate mark texts).toList.splitOn sep).map
      (fun s => strip (String.ofList s)) = texts := by
  rw [String.toList_intercalate, hmark, List.splitOn_intercalate, List.map_map]
  · refine (List.map_congr_left fun s hs => ?_).trans (List.map_id _)
    rw [Function.comp_apply, String.ofList_toList, strip_of_forall fun c hc => (h s hs c hc).1]
    rfl
  · intro l hl hmem
    obtain ⟨s, hs, rfl⟩ := List.mem_map.1 hl
    exact (h s hs sep hmem).2 rfl
  · simpa using hne

theorem alternatives_intercalate {texts : List String}
    (h : ∀ s ∈ texts, s ≠ "" ∧ ∀ c ∈ s.toList, isFieldChar c = true) :
    alternatives (String.intercalate "|" texts) = texts := by
  by_cases hnil : texts = []
  · rw [hnil]
    rfl
  · rw [alternatives, map_strip_splitOn rfl hnil]
    · exact List.filter_eq_self.2 fun s hs => decide_eq_true (h s hs).1
    · intro s hs c hc
      have := (h s hs).2 c hc
      rw [isFieldChar, Bool.and_eq_true, Bool.and_eq_true] at this
      exact ⟨by simpa using this.1.1, by simpa using this.2⟩

end Fields

section Spec

variable {hexdigest : String → String} {a : MintArgs} (h : a.WellFormed)
  (hhex : isDigest (hexdigest a.secret) = true)

include h hhex

/-- No field of the entry has white space, and none has a colon. -/
theorem MintArgs.fields_plain : ∀ field ∈ [a.identity, String.intercalate "|" a.scopes,
    hexdigest a.secret, String.intercalate "|" a.workstreams],
    ∀ c ∈ field.toList, isSpace c = false ∧ c ≠ ':' := by
  have hchar {c : Char} (hc : isFieldChar c = true) : isSpace c = false ∧ c ≠ ':' := by
    rw [isFieldChar, Bool.and_eq_true, Bool.and_eq_true] at hc
    simpa using hc.1
  have hjoined {texts : List String} (ht : ∀ s ∈ texts, ∀ c ∈ s.toList, isFieldChar c = true) :
      ∀ c ∈ (String.intercalate "|" texts).toList, isSpace c = false ∧ c ≠ ':' := by
    intro c hc
    rw [String.toList_intercalate] at hc
    rcases mem_or_of_mem_intercalate hc with hc | ⟨l, hl, hc⟩
    · obtain rfl := List.mem_singleton.1 hc
      decide
    · obtain ⟨s, hs, rfl⟩ := List.mem_map.1 hl
      exact hchar (ht s hs c hc)
  intro field hfield
  simp only [List.mem_cons, List.not_mem_nil, or_false] at hfield
  rcases hfield with rfl | rfl | rfl | rfl
  · exact fun c hc => hchar (isFieldChar_of_isIdentifier h.identity c hc)
  · exact hjoined fun s hs => isFieldChar_of_scope (h.scopes s hs)
  · exact fun c hc => hchar (isFieldChar_of_isDigest hhex c hc)
  · exact hjoined fun w hw => isFieldChar_of_isIdentifier (h.workstreams w hw)

/-- The fields of the entry, in their order. -/
def MintArgs.parts (hexdigest : String → String) (a : MintArgs) : List String :=
  [a.identity, String.intercalate "|" a.scopes, hexdigest a.secret] ++
    if a.workstreams.isEmpty then [] else [String.intercalate "|" a.workstreams]

omit h hhex in
theorem MintArgs.spec_eq_intercalate :
    a.spec hexdigest = String.intercalate ":" (a.parts hexdigest) := by
  unfold MintArgs.spec MintArgs.parts
  cases a.workstreams.isEmpty with
  | true => rfl
  | false => rfl

theorem MintArgs.parts_plain : ∀ field ∈ a.parts hexdigest,
    ∀ c ∈ field.toList, isSpace c = false ∧ c ≠ ':' := by
  intro field hfield
  refine a.fields_plain h hhex field ?_
  rw [MintArgs.parts] at hfield
  split at hfield
  · simp only [List.append_nil, List.mem_cons, List.not_mem_nil, or_false] at hfield
    simp only [List.mem_cons]
    tauto
  · exact hfield

theorem MintArgs.spec_plain : ∀ c ∈ (a.spec hexdigest).toList, isSpace c = false := by
  intro c hc
  rw [a.spec_eq_intercalate, String.toList_intercalate] at hc
  rcases mem_or_of_mem_intercalate hc with hc | ⟨l, hl, hc⟩
  · obtain rfl := List.mem_singleton.1 hc
    decide
  · obtain ⟨field, hfield, rfl⟩ := List.mem_map.1 hl
    exact (a.parts_plain h hhex field hfield c hc).1

theorem MintArgs.fields_spec : fields (a.spec hexdigest) = a.parts hexdigest := by
  rw [fields, strip_of_forall (a.spec_plain h hhex), a.spec_eq_intercalate]
  exact map_strip_splitOn rfl (by simp [MintArgs.parts]) (a.parts_plain h hhex)

theorem Token.ofFields_spec {rawWorkstreams : String}
    (hworkstreams : alternatives rawWorkstreams = a.workstreams) :
    ∃ token, Token.ofFields a.identity (String.intercalate "|" a.scopes) (hexdigest a.secret)
        rawWorkstreams = .ok token ∧
      token.identity = a.identity ∧ token.scopes = (a.scopes.filterMap Scope.ofText?).dedup ∧
      token.digest = hexdigest a.secret ∧ token.workstreams = a.workstreams.dedup := by
  have hscopes : alternatives (String.intercalate "|" a.scopes) = a.scopes := by
    refine alternatives_intercalate fun s hs => ⟨?_, isFieldChar_of_scope (h.scopes s hs)⟩
    rintro rfl
    have := h.scopes "" hs
    revert this
    decide
  have hknown : a.scopes.filter (fun s => (Scope.ofText? s).isNone) = [] := by
    rw [List.filter_eq_nil_iff]
    intro s hs
    simpa [Option.isSome_iff_ne_none] using h.scopes s hs
  have hsome : a.scopes.isEmpty = false := by simpa using h.scopes_ne
  have hnamed : ∀ w ∈ a.workstreams.dedup, isIdentifier w = true :=
    fun w hw => h.workstreams w (List.mem_dedup.1 hw)
  refine ⟨⟨a.identity, (a.scopes.filterMap Scope.ofText?).dedup, hexdigest a.secret,
    a.workstreams.dedup, h.identity, hnamed, List.nodup_dedup _⟩, ?_, rfl, rfl, rfl, rfl⟩
  unfold Token.ofFields
  simp only [h.identity, lowerDigest_of_isDigest hhex, hhex, hscopes, hsome, hknown,
    hworkstreams]
  exact dif_pos hnamed

/-- **The gateway reads an entry back**: its token has the identity, the scopes, the digest of the
secret and the workstreams of the call. -/
theorem parseTokenSpec_spec : ∃ token, parseTokenSpec (a.spec hexdigest) = .ok token ∧
    token.identity = a.identity ∧ token.scopes = (a.scopes.filterMap Scope.ofText?).dedup ∧
    token.digest = hexdigest a.secret ∧ token.workstreams = a.workstreams.dedup := by
  have hread := a.fields_spec h hhex
  rw [MintArgs.parts] at hread
  split at hread
  next hnone =>
    have hempty : alternatives "" = a.workstreams := by
      rw [List.isEmpty_iff.1 hnone]
      rfl
    obtain ⟨token, htoken, hfields⟩ := Token.ofFields_spec h hhex hempty
    exact ⟨token, by rw [parseTokenSpec, hread]; exact htoken, hfields⟩
  next =>
    have hpinned : alternatives (String.intercalate "|" a.workstreams) = a.workstreams := by
      refine alternatives_intercalate fun w hw =>
        ⟨?_, isFieldChar_of_isIdentifier (h.workstreams w hw)⟩
      rintro rfl
      cases h.workstreams "" hw
    obtain ⟨token, htoken, hfields⟩ := Token.ofFields_spec h hhex hpinned
    exact ⟨token, by rw [parseTokenSpec, hread]; exact htoken, hfields⟩

end Spec

/-- A digest that tells two secrets apart. -/
def digestOf (secret : String) : String := plainDigest (if secret = "second" then 'b' else 'a')

/-- A call with two scopes and a workstream. -/
def mintPinned : MintArgs where
  identity := "offhost-cursor"
  scopes := ["read", "claim"]
  workstreams := ["video"]
  secret := "second"

theorem parseTokenSpec_spec_pinned : ∃ token,
    parseTokenSpec (mintPinned.spec digestOf) = .ok token ∧ token.identity = "offhost-cursor" ∧
      token.scopes = [.read, .claim] ∧ token.digest = plainDigest 'b' ∧
      token.workstreams = ["video"] :=
  parseTokenSpec_spec
    { identity := by decide
      scopes_ne := by decide
      scopes := by decide
      workstreams := by decide } (by decide)

/-! ## What the next call reads -/

/-- A text of accepted entries, with a blank between one and the next. -/
theorem exists_specs {existing spec : String} {registry : TokenRegistry} {token : Token}
    (hexisting : TokenRegistry.fromSpec existing = .ok registry)
    (hplain : ∀ c ∈ spec.toList, isSpace c = false) (htoken : parseTokenSpec spec = .ok token) :
    ∃ specs, specs ≠ [] ∧ upsertTokenSpec existing spec = String.intercalate " " specs ∧
      ∀ s ∈ specs, (∀ c ∈ s.toList, isSpace c = false) ∧ ∃ t, parseTokenSpec s = .ok t := by
  rw [TokenRegistry.fromSpec_eq_ok_iff] at hexisting
  have hold : ∀ s ∈ entries existing,
      (∀ c ∈ s.toList, isSpace c = false) ∧ ∃ t, parseTokenSpec s = .ok t := by
    intro s hs
    obtain ⟨t, -, ht⟩ := exists_mem_of_forall₂ hexisting.flip hs
    exact ⟨(plain_of_mem_entries hs).1, t, ht⟩
  have hnew : (∀ c ∈ spec.toList, isSpace c = false) ∧ ∃ t, parseTokenSpec spec = .ok t :=
    ⟨hplain, token, htoken⟩
  have hkept : ∀ s ∈ (splitTokenSpecs existing).map fun s =>
      if firstField s = firstField spec then spec else s,
      (∀ c ∈ s.toList, isSpace c = false) ∧ ∃ t, parseTokenSpec s = .ok t := by
    intro s hs
    obtain ⟨old, hmem, rfl⟩ := List.mem_map.1 hs
    split
    · exact hnew
    · exact hold old hmem
  by_cases hany : ((splitTokenSpecs existing).any fun s => firstField s = firstField spec) = true
  · refine ⟨_, ?_, by rw [upsertTokenSpec, if_pos hany], hkept⟩
    intro hnil
    rw [List.map_eq_nil_iff] at hnil
    rw [hnil] at hany
    cases hany
  · refine ⟨_, ?_, by rw [upsertTokenSpec, if_neg hany], ?_⟩
    · simp
    · intro s hs
      rcases List.mem_append.1 hs with hs | hs
      · exact hkept s hs
      · exact List.mem_singleton.1 hs ▸ hnew

/-- An accepted entry begins with a letter or a digit. -/
theorem exists_cons_of_parse {spec : String} {token : Token}
    (hplain : ∀ c ∈ spec.toList, isSpace c = false) (htoken : parseTokenSpec spec = .ok token) :
    ∃ c rest, spec.toList = c :: rest ∧ isIdentStart c = true := by
  have hidentified := token.identified
  rw [← firstField_of_plain htoken hplain, isIdentifier, firstField, String.toList_ofList]
    at hidentified
  cases hspec : spec.toList with
  | nil =>
      rw [hspec] at hidentified
      cases hidentified
  | cons c rest =>
      refine ⟨c, rest, rfl, ?_⟩
      by_cases hc : c = ':'
      · rw [hspec, List.takeWhile_cons_of_neg (by simp [hc])] at hidentified
        cases hidentified
      · rw [hspec, List.takeWhile_cons_of_pos (by simp [hc])] at hidentified
        simp only [Bool.and_eq_true] at hidentified
        exact hidentified.1.1

theorem unquote_of_cons {raw : String} {c : Char} {rest : List Char} (hraw : raw.toList = c :: rest)
    (hc : isIdentStart c = true) : unquote raw = raw := by
  have hquote : "\"'".toList.contains c = false := by
    rw [List.contains_eq_mem, decide_eq_false_iff_not]
    intro hmem
    have hall : ∀ c ∈ "\"'".toList, isIdentStart c = false := forall_mem_of_all (by decide)
    rw [hall c hmem] at hc
    cases hc
  unfold unquote
  split
  next quote d rest' heq =>
    rw [hraw] at heq
    obtain ⟨rfl, -⟩ := List.cons.inj heq
    rw [hquote, Bool.and_false]
    exact if_neg (by simp)
  next => rfl

theorem not_isLineBreak_of_not_isSpace {c : Char} (h : isSpace c = false) :
    isLineBreak c = false := by
  simp only [isSpace, isLineBreak, Bool.or_eq_false_iff, Bool.and_eq_false_iff,
    decide_eq_false_iff_not] at h ⊢
  omega

/-- **A written text is read as it was**: it has no line break, and no quotes are around it. -/
theorem entries_read_write {existing spec : String} {registry : TokenRegistry} {token : Token}
    (hexisting : TokenRegistry.fromSpec existing = .ok registry)
    (hplain : ∀ c ∈ spec.toList, isSpace c = false) (htoken : parseTokenSpec spec = .ok token)
    (file : Option String) :
    (∀ c ∈ (upsertTokenSpec existing spec).toList, isLineBreak c = false) ∧
      entries (readDotenvValue
          (some (writeDotenvValue file envTokens (upsertTokenSpec existing spec))) envTokens) =
        entries (upsertTokenSpec existing spec) := by
  obtain ⟨specs, hne, hvalue, hspecs⟩ := exists_specs hexisting hplain htoken
  have hbreak : ∀ c ∈ (upsertTokenSpec existing spec).toList, isLineBreak c = false := by
    intro c hc
    rw [hvalue, String.toList_intercalate] at hc
    rcases mem_or_of_mem_intercalate hc with hc | ⟨l, hl, hc⟩
    · obtain rfl := List.mem_singleton.1 hc
      decide
    · obtain ⟨s, hs, rfl⟩ := List.mem_map.1 hl
      exact not_isLineBreak_of_not_isSpace ((hspecs s hs).1 c hc)
  have hfirst : firstLine (upsertTokenSpec existing spec) = upsertTokenSpec existing spec := by
    apply String.toList_injective
    rw [firstLine_toList, List.takeWhile_eq_self_iff]
    exact fun c hc => by simp [hbreak c hc]
  obtain ⟨c, rest, hrest, hc⟩ : ∃ c rest, (strip (upsertTokenSpec existing spec)).toList = c :: rest ∧
      isIdentStart c = true := by
    obtain ⟨first, others, rfl⟩ := List.exists_cons_of_ne_nil hne
    obtain ⟨hfirst, t, ht⟩ := hspecs first (List.mem_cons_self ..)
    obtain ⟨c, rest, hspec, hc⟩ := exists_cons_of_parse hfirst ht
    have hspace : isSpace c = false := hfirst c (by simp [hspec])
    obtain ⟨post, hpost⟩ : ∃ post, (upsertTokenSpec existing spec).toList = [c] ++ post := by
      cases others with
      | nil => exact ⟨rest, by rw [hvalue, String.toList_intercalate]; simp [hspec]⟩
      | cons next others =>
          rw [hvalue, String.toList_intercalate, List.map_cons, List.map_cons,
            List.intercalate_cons_cons, hspec]
          exact ⟨_, rfl⟩
    obtain ⟨rest', hrest'⟩ := strip_of_prefix (by simp) (by simpa using hspace)
      (by simpa using hspace) hpost
    exact ⟨c, rest', hrest', hc⟩
  refine ⟨hbreak, ?_⟩
  rw [read_write, hfirst, unquote_of_cons hrest hc, entries, strip_strip]
  rfl

/-! ## The current tokens -/

/-- The token of an identity. -/
def TokenRegistry.current (registry : TokenRegistry) (identity : String) : Option Token :=
  registry.tokens.find? fun token => token.identity = identity

/-- What a call is for: its token becomes the current one of its identity. -/
def MintArgs.issue (hexdigest : String → String) (current : String → Option Token) (a : MintArgs) :
    String → Option Token :=
  match parseTokenSpec (a.spec hexdigest) with
  | .ok token =>
      if a.writeEnv then Function.update current token.identity (some token) else current
  | .error _ => current

/-- A file keeps the current tokens: an entry for each, and none besides. -/
structure Keeps (file : Option String) (current : String → Option Token)
    (registry : TokenRegistry) : Prop where
  read : TokenRegistry.fromSpec (readDotenvValue file envTokens) = .ok registry
  single : (registry.tokens.map Token.identity).Nodup
  current : ∀ token, token ∈ registry.tokens ↔ current token.identity = some token

theorem mem_iff_find?_of_nodup {tokens : List Token} (h : (tokens.map Token.identity).Nodup)
    (token : Token) :
    token ∈ tokens ↔ tokens.find? (fun t => t.identity = token.identity) = some token := by
  constructor
  · intro hmem
    induction tokens with
    | nil => cases hmem
    | cons first tokens ih =>
        rw [List.map_cons, List.nodup_cons] at h
        rcases List.mem_cons.1 hmem with rfl | hmem
        · simp
        · have hne : first.identity ≠ token.identity :=
            fun heq => h.1 (heq ▸ List.mem_map_of_mem hmem)
          rw [List.find?_cons_of_neg (by simpa using hne)]
          exact ih h.2 hmem
  · exact List.mem_of_find?_eq_some

/-- Each token is accepted for its secret, and no other. -/
theorem TokenRegistry.authenticate_eq_some_iff {registry : TokenRegistry}
    {hexdigest : String → String} {secret : String} {token : Token} :
    registry.authenticate hexdigest (some secret) = some token ↔
      secret ≠ "" ∧ token ∈ registry.tokens ∧ token.digest = hexdigest secret := by
  have hfold (tokens : List Token) (matched : Option Token)
      (hdistinct : (tokens.map Token.digest).Nodup)
      (hmatched : ∀ t ∈ matched, hexdigest secret = t.digest ∧ t.digest ∉ tokens.map Token.digest) :
      tokens.foldl (fun matched t => if hexdigest secret = t.digest then some t else matched)
          matched = some token ↔
        matched = some token ∨ token ∈ tokens ∧ token.digest = hexdigest secret := by
    induction tokens generalizing matched with
    | nil => simp
    | cons t tokens ih =>
        rw [List.map_cons, List.nodup_cons] at hdistinct
        rw [List.foldl_cons]
        by_cases ht : hexdigest secret = t.digest
        · have hnone : matched = none := by
            cases matched with
            | none => rfl
            | some m =>
                obtain ⟨hm, hmem⟩ := hmatched m rfl
                exact absurd (by simp [← ht, hm]) hmem
          rw [if_pos ht, ih (some t) hdistinct.2, hnone]
          · constructor
            · rintro (heq | ⟨hmem, hd⟩)
              · obtain rfl := Option.some.inj heq
                exact .inr ⟨List.mem_cons_self .., ht.symm⟩
              · exact .inr ⟨List.mem_cons_of_mem _ hmem, hd⟩
            · rintro (heq | ⟨hmem, hd⟩)
              · cases heq
              · rcases List.mem_cons.1 hmem with rfl | hmem
                · exact .inl rfl
                · exact .inr ⟨hmem, hd⟩
          · rintro m hm
            obtain rfl := Option.some.inj hm
            exact ⟨ht, hdistinct.1⟩
        · rw [if_neg ht, ih matched hdistinct.2]
          · refine or_congr_right (and_congr_left fun hd => ?_)
            rw [List.mem_cons, or_iff_right]
            rintro rfl
            exact ht hd.symm
          · intro m hm
            obtain ⟨hd, hmem⟩ := hmatched m hm
            exact ⟨hd, fun h => hmem (List.mem_cons_of_mem _ h)⟩
  rw [TokenRegistry.authenticate, Option.bind_some]
  by_cases hsecret : secret = ""
  · simp [hsecret]
  · rw [if_neg hsecret, hfold _ _ registry.distinct (by simp)]
    simp [hsecret]

section Mint

variable {hexdigest : String → String} {file : Option String} {current : String → Option Token}
  {registry : TokenRegistry} {a : MintArgs}

theorem Keeps.countP_le_one (h : Keeps file current registry) (identity : String) :
    registry.tokens.countP (fun t => t.identity = identity) ≤ 1 := by
  have hcount := List.nodup_iff_count_le_one.1 h.single identity
  rw [List.count, List.countP_map] at hcount
  refine le_of_eq_of_le (List.countP_congr fun t _ => ?_) hcount
  simp

/-- The file after a call. -/
theorem getD_mint (hexdigest : String → String) (file : Option String) (a : MintArgs) :
    (Gateway.mint hexdigest file a).toOption.getD file =
      match parseTokenSpec (a.spec hexdigest) with
      | .error _ => file
      | .ok _ =>
          if a.writeEnv then
            some (writeDotenvValue file envTokens
              (upsertTokenSpec (readDotenvValue file envTokens) (a.spec hexdigest)))
          else file := by
  unfold Gateway.mint
  dsimp only
  cases parseTokenSpec (a.spec hexdigest) with
  | error e => rfl
  | ok token =>
      cases a.writeEnv with
      | true => rfl
      | false => rfl

/-- **One call**: the file keeps the current tokens, those that the call leaves, and no other key is
read differently. -/
theorem Keeps.mint (h : Keeps file current registry)
    (hplain : ∀ token, parseTokenSpec (a.spec hexdigest) = .ok token →
      ∀ c ∈ (a.spec hexdigest).toList, isSpace c = false)
    (hnew : ∀ token, parseTokenSpec (a.spec hexdigest) = .ok token →
      ∀ t ∈ registry.tokens, t.digest ≠ token.digest) :
    ∃ registry', Keeps ((Gateway.mint hexdigest file a).toOption.getD file)
        (a.issue hexdigest current) registry' ∧
      (∀ t ∈ registry'.tokens, t ∈ registry.tokens ∨
        parseTokenSpec (a.spec hexdigest) = .ok t) ∧
      ∀ other, other ≠ envTokens →
        readDotenvValue ((Gateway.mint hexdigest file a).toOption.getD file) other =
          readDotenvValue file other := by
  rw [getD_mint, MintArgs.issue]
  cases htoken : parseTokenSpec (a.spec hexdigest) with
  | error e => exact ⟨registry, h, fun t ht => .inl ht, fun _ _ => rfl⟩
  | ok token =>
      dsimp only
      by_cases hwrite : a.writeEnv = true
      · have hspec := hplain token htoken
        obtain ⟨hbreak, hentries⟩ := entries_read_write h.read hspec htoken file
        have hread := mapM_upsert h.read htoken fun c hc => hspec c (by
          rwa [strip_of_forall hspec] at hc)
        rw [firstField_of_plain htoken hspec, ← hentries] at hread
        have hperm := (upserted_perm_iff token).2 (h.countP_le_one token.identity)
        rw [if_pos hwrite, if_pos hwrite]
        have hdistinct : ((upserted registry.tokens token.identity token).map Token.digest).Nodup := by
          rw [(hperm.map Token.digest).nodup_iff, List.map_cons, List.nodup_cons]
          refine ⟨fun hmem => ?_, registry.distinct.sublist (List.filter_sublist.map _)⟩
          obtain ⟨t, ht, heq⟩ := List.mem_map.1 hmem
          exact hnew token htoken t (List.mem_filter.1 ht).1 heq
        have hmem (t : Token) : t ∈ upserted registry.tokens token.identity token ↔
            t = token ∨ t ∈ registry.tokens ∧ t.identity ≠ token.identity := by
          rw [hperm.mem_iff, List.mem_cons, others, List.mem_filter, decide_eq_true_eq]
        refine ⟨⟨upserted registry.tokens token.identity token, hdistinct⟩, ?_, ?_, ?_⟩
        · exact
            { read := (TokenRegistry.fromSpec_of_mapM hread).2 rfl
              single := by
                rw [(hperm.map Token.identity).nodup_iff, List.map_cons, List.nodup_cons]
                refine ⟨fun hmem => ?_, h.single.sublist (List.filter_sublist.map _)⟩
                obtain ⟨t, ht, heq⟩ := List.mem_map.1 hmem
                simpa [heq] using (List.mem_filter.1 ht).2
              current := fun t => by
                rw [hmem]
                by_cases ht : t.identity = token.identity
                · rw [ht, Function.update_self, Option.some.injEq, eq_comm]
                  simp
                · rw [Function.update_of_ne ht, h.current]
                  constructor
                  · rintro (rfl | ⟨hcurrent, -⟩)
                    · exact absurd rfl ht
                    · exact hcurrent
                  · exact fun hcurrent => .inr ⟨hcurrent, ht⟩ }
        · intro t ht
          rcases (hmem t).1 ht with rfl | ⟨ht, -⟩
          · exact .inr rfl
          · exact .inl ht
        · exact fun other hne => read_write_of_ne file hne hbreak
      · rw [if_neg hwrite, if_neg hwrite]
        exact ⟨registry, h, fun t ht => .inl ht, fun _ _ => rfl⟩

/-- The tokens that the calls of a run draw up, those of calls that do not write included. -/
def drawn (hexdigest : String → String) (calls : List MintArgs) : List Token :=
  calls.filterMap fun a => (parseTokenSpec (a.spec hexdigest)).toOption

/-- **A run of calls**: the file keeps the current tokens at its end. -/
theorem Keeps.mintAll (h : Keeps file current registry) {calls : List MintArgs}
    (hplain : ∀ a ∈ calls, ∀ token, parseTokenSpec (a.spec hexdigest) = .ok token →
      ∀ c ∈ (a.spec hexdigest).toList, isSpace c = false)
    (hdrawn : ((drawn hexdigest calls).map Token.digest).Nodup)
    (hnew : ∀ token ∈ drawn hexdigest calls, ∀ t ∈ registry.tokens, t.digest ≠ token.digest) :
    ∃ registry', Keeps (Gateway.mintAll hexdigest file calls)
        (calls.foldl (MintArgs.issue hexdigest) current) registry' ∧
      ∀ other, other ≠ envTokens →
        readDotenvValue (Gateway.mintAll hexdigest file calls) other =
          readDotenvValue file other := by
  induction calls generalizing file current registry with
  | nil => exact ⟨registry, h, fun _ _ => rfl⟩
  | cons a calls ih =>
      have hrest := fun a ha => hplain a (List.mem_cons_of_mem _ ha)
      have hfirst {token : Token} (ht : parseTokenSpec (a.spec hexdigest) = .ok token) :
          drawn hexdigest (a :: calls) = token :: drawn hexdigest calls := by
        rw [drawn, List.filterMap_cons_some]
        · rfl
        · rw [ht]
          rfl
      obtain ⟨registry', hkeeps, htokens, hothers⟩ := h.mint (hplain a (List.mem_cons_self ..))
        fun token ht => hnew token (by rw [hfirst ht]; exact List.mem_cons_self ..)
      have hsub : drawn hexdigest calls ⊆ drawn hexdigest (a :: calls) :=
        List.filterMap_subset _ (List.subset_cons_self a calls)
      have hlater : ((drawn hexdigest calls).map Token.digest).Nodup :=
        hdrawn.sublist (((List.sublist_cons_self a calls).filterMap _).map _)
      obtain ⟨last, hlast, hsame⟩ := ih hkeeps hrest hlater (by
        intro token htoken t ht
        rcases htokens t ht with ht | ht
        · exact hnew token (hsub htoken) t ht
        · rw [hfirst ht, List.map_cons, List.nodup_cons] at hdrawn
          exact fun heq => hdrawn.1 (heq ▸ List.mem_map_of_mem htoken))
      rw [Gateway.mintAll, List.foldl_cons, List.foldl_cons]
      exact ⟨last, hlast, fun other hne => (hsame other hne).trans (hothers other hne)⟩

/-- **Minting rotates.** After any calls a registry is read from the file that accepts a secret
exactly as the current token of an identity: the one of the last call for it, or the one the file
had if there was none. No other key of the file is read differently. -/
theorem minted_of_run (hread : TokenRegistry.fromSpec (readDotenvValue file envTokens) = .ok registry)
    (hsingle : (registry.tokens.map Token.identity).Nodup) {calls : List MintArgs}
    (hplain : ∀ a ∈ calls, ∀ token, parseTokenSpec (a.spec hexdigest) = .ok token →
      ∀ c ∈ (a.spec hexdigest).toList, isSpace c = false)
    (hdrawn : ((drawn hexdigest calls).map Token.digest).Nodup)
    (hnew : ∀ token ∈ drawn hexdigest calls, ∀ t ∈ registry.tokens, t.digest ≠ token.digest) :
    ∃ registry',
      TokenRegistry.fromSpec (readDotenvValue (Gateway.mintAll hexdigest file calls) envTokens) =
        .ok registry' ∧
      (∀ secret token, registry'.authenticate hexdigest (some secret) = some token ↔
        secret ≠ "" ∧ token.digest = hexdigest secret ∧
          calls.foldl (MintArgs.issue hexdigest) registry.current token.identity = some token) ∧
      ∀ other, other ≠ envTokens →
        readDotenvValue (Gateway.mintAll hexdigest file calls) other =
          readDotenvValue file other := by
  have hkeeps : Keeps file registry.current registry :=
    { read := hread
      single := hsingle
      current := mem_iff_find?_of_nodup hsingle }
  obtain ⟨registry', hlast, hothers⟩ := hkeeps.mintAll hplain hdrawn hnew
  refine ⟨registry', hlast.read, fun secret token => ?_, hothers⟩
  rw [TokenRegistry.authenticate_eq_some_iff, hlast.current]
  tauto

end Mint

/-- A reader's token is minted with a secret. -/
def mintReader (secret : String) : MintArgs where
  identity := "studio"
  scopes := ["read"]
  secret := secret

/-- A token is minted and rotated, in a file with another key. -/
theorem minted_of_run_rotated : ∃ registry',
    TokenRegistry.fromSpec (readDotenvValue
        (mintAll digestOf (some "FOO=1\n") [mintReader "first", mintReader "second"]) envTokens) =
      .ok registry' ∧
    (∀ secret token, registry'.authenticate digestOf (some secret) = some token ↔
      secret ≠ "" ∧ token.digest = digestOf secret ∧
        [mintReader "first", mintReader "second"].foldl (MintArgs.issue digestOf)
          (⟨[], List.nodup_nil⟩ : TokenRegistry).current token.identity = some token) ∧
    ∀ other, other ≠ envTokens →
      readDotenvValue (mintAll digestOf (some "FOO=1\n")
          [mintReader "first", mintReader "second"]) other =
        readDotenvValue (some "FOO=1\n") other := by
  have hfirst : (mintReader "first").spec digestOf = readerSpec 'a' := rfl
  have hsecond : (mintReader "second").spec digestOf = readerSpec 'b' := rfl
  have hreada : parseTokenSpec (readerSpec 'a') = .ok (reader 'a') :=
    parseTokenSpec_readerSpec (by decide)
  have hreadb : parseTokenSpec (readerSpec 'b') = .ok (reader 'b') :=
    parseTokenSpec_readerSpec (by decide)
  have hdrawn : drawn digestOf [mintReader "first", mintReader "second"] =
      [reader 'a', reader 'b'] := by
    rw [drawn, List.filterMap_cons_some (b := reader 'a'),
      List.filterMap_cons_some (b := reader 'b')]
    · rfl
    · rw [hsecond, hreadb]
      rfl
    · rw [hfirst, hreada]
      rfl
  have hempty : readDotenvValue (some "FOO=1\n") envTokens = "" := by decide
  have hplain : ∀ a ∈ [mintReader "first", mintReader "second"],
      ∀ c ∈ (a.spec digestOf).toList, isSpace c = false := by
    intro a ha
    rcases List.mem_cons.1 ha with rfl | ha
    · rw [hfirst]
      exact isSpace_readerSpec (by decide)
    · rw [List.mem_singleton.1 ha, hsecond]
      exact isSpace_readerSpec (by decide)
  have hread : TokenRegistry.fromSpec (readDotenvValue (some "FOO=1\n") envTokens) =
      .ok ⟨[], List.nodup_nil⟩ := by
    rw [hempty]
    exact TokenRegistry.fromSpec_eq_ok_iff.2 .nil
  refine minted_of_run hread List.nodup_nil (fun a ha _ _ => hplain a ha) ?_ ?_
  · rw [hdrawn]
    have hne : plainDigest 'a' ≠ plainDigest 'b' := by
      intro h
      have := congrArg String.toList h
      rw [plainDigest, plainDigest, String.toList_ofList, String.toList_ofList] at this
      exact absurd (List.replicate_right_injective (by decide : (64 : Nat) ≠ 0) this) (by decide)
    simpa [reader] using hne
  · exact fun _ _ t ht => absurd ht List.not_mem_nil

end AiStudio.Gateway
