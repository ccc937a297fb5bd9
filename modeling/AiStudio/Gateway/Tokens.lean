import AiStudio.Data.Pieces
import AiStudio.Data.Traverse
import AiStudio.Gateway.Auth
import Mathlib.Data.List.Dedup
import Mathlib.Data.List.Perm.Basic

/-!
# Token specs

The text of `TASK_GATEWAY_TOKENS`: `TokenRegistry.from_spec` of `gateway/auth.py` reads it, and
`upsert_token_spec` of `gateway/client.py` edits it. A new spec is meant to take the place of the
entry of its identity. The updater writes it for every entry of that identity, recognizes the
identity by the raw text before the first colon, and does not look at the digests of the others.
-/

set_option autoImplicit false

namespace AiStudio.Gateway

open AiStudio.Data

/-! ## Reading -/

/-- Why a configuration is refused. -/
inductive TokenSpecError where
  | fieldCount (count : Nat)
  | identity (identity : String)
  | digest (identity : String)
  | noScopes (identity : String)
  | unknownScopes (identity : String) (unknown : List String)
  | workstreams (identity : String) (bad : List String)
  | duplicateDigest (identity : String)
  deriving DecidableEq

/-- `[e for e in re.split(r"[\s,]+", raw.strip()) if e]` separates at these. -/
def isSeparator (c : Char) : Bool := isSpace c || c = ','

/-- The entries of a configured text. -/
def entries (raw : String) : List String :=
  (pieces isSeparator (strip raw).toList).map String.ofList

/-- The scope of a text. -/
def Scope.ofText? : String → Option Scope
  | "read" => some .read
  | "enqueue" => some .enqueue
  | "claim" => some .claim
  | "complete" => some .complete
  | _ => none

/-- `_DIGEST_RE`, of a text without a final line break. -/
def isDigest (digest : String) : Bool :=
  digest.toList.length = 64 && digest.toList.all isHexDigit

/-- `digest.lower()`, as far as it makes digits of a digest. -/
def lowerDigest (digest : String) : String := String.ofList (digest.toList.map Char.toLower)

/-- The fields of an entry. -/
def fields (spec : String) : List String :=
  ((strip spec).toList.splitOn ':').map fun field => strip (String.ofList field)

/-- What a field lists, between `|`. -/
def alternatives (field : String) : List String :=
  ((field.toList.splitOn '|').map fun s => strip (String.ofList s)).filter (· ≠ "")

/-- `sorted` of a set of texts. -/
def sortedSet (texts : List String) : List String :=
  texts.dedup.mergeSort fun s t => decide (s ≤ t)

/-- The checks of the fields, in the order of the source. -/
def Token.ofFields (identity rawScopes digest rawWorkstreams : String) :
    Except TokenSpecError Token :=
  let scopes := alternatives rawScopes
  let unknown := scopes.filter fun s => (Scope.ofText? s).isNone
  let workstreams := (alternatives rawWorkstreams).dedup
  if hidentity : isIdentifier identity = true then
    if !isDigest (lowerDigest digest) then .error (.digest identity)
    else if scopes.isEmpty then .error (.noScopes identity)
    else if !unknown.isEmpty then .error (.unknownScopes identity (sortedSet unknown))
    else if hworkstreams : ∀ w ∈ workstreams, isIdentifier w = true then
      .ok
        { identity
          scopes := (scopes.filterMap Scope.ofText?).dedup
          digest := lowerDigest digest
          workstreams
          identified := hidentity
          named := hworkstreams
          distinct := List.nodup_dedup _ }
    else
      .error (.workstreams identity (sortedSet (workstreams.filter fun w => !isIdentifier w)))
  else .error (.identity identity)

/-- `parse_token_spec`. -/
def parseTokenSpec (spec : String) : Except TokenSpecError Token :=
  match fields spec with
  | [identity, rawScopes, digest] => Token.ofFields identity rawScopes digest ""
  | [identity, rawScopes, digest, rawWorkstreams] =>
      Token.ofFields identity rawScopes digest rawWorkstreams
  | parts => .error (.fieldCount parts.length)

/-- The first token whose digest an earlier one has, or one that was seen before. -/
def firstDuplicate : List String → List Token → Option Token
  | _, [] => none
  | seen, token :: tokens =>
      if token.digest ∈ seen then some token else firstDuplicate (token.digest :: seen) tokens

theorem firstDuplicate_eq_none_iff (seen : List String) (tokens : List Token) :
    firstDuplicate seen tokens = none ↔
      (tokens.map Token.digest).Nodup ∧ ∀ token ∈ tokens, token.digest ∉ seen := by
  induction tokens generalizing seen with
  | nil => simp [firstDuplicate]
  | cons token tokens ih =>
      rw [firstDuplicate]
      by_cases hseen : token.digest ∈ seen
      · simp [hseen]
      · rw [if_neg hseen, ih, List.map_cons, List.nodup_cons]
        constructor
        · rintro ⟨hnodup, hfresh⟩
          refine ⟨⟨fun hmem => ?_, hnodup⟩, ?_⟩
          · obtain ⟨t, ht, heq⟩ := List.mem_map.1 hmem
            exact hfresh t ht (heq ▸ List.mem_cons_self ..)
          · rintro t (_ | ⟨_, ht⟩)
            · exact hseen
            · exact fun h => hfresh t ht (List.mem_cons_of_mem _ h)
        · rintro ⟨⟨hfirst, hnodup⟩, hfresh⟩
          refine ⟨hnodup, fun t ht hmem => ?_⟩
          rcases List.mem_cons.1 hmem with heq | hmem
          · exact hfirst (heq ▸ List.mem_map_of_mem ht)
          · exact hfresh t (List.mem_cons_of_mem _ ht) hmem

/-- `TokenRegistry(tokens)`: no two tokens have one digest. -/
def TokenRegistry.new (tokens : List Token) : Except TokenSpecError TokenRegistry :=
  match h : firstDuplicate [] tokens with
  | some token => .error (.duplicateDigest token.identity)
  | none => .ok ⟨tokens, ((firstDuplicate_eq_none_iff [] tokens).1 h).1⟩

/-- `TokenRegistry.from_spec`. -/
def TokenRegistry.fromSpec (raw : String) : Except TokenSpecError TokenRegistry :=
  if isBlank raw then TokenRegistry.new []
  else (entries raw).mapM parseTokenSpec >>= TokenRegistry.new

/-! ## Editing -/

/-- `_split_token_specs`. -/
def splitTokenSpecs (raw : String) : List String := entries raw

/-- `spec.split(":", 1)[0]`. -/
def firstField (spec : String) : String := String.ofList (spec.toList.takeWhile (· ≠ ':'))

/-- `upsert_token_spec`. -/
def upsertTokenSpec (existing newSpec : String) : String :=
  let identity := firstField newSpec
  let specs := splitTokenSpecs existing
  let kept := specs.map fun spec => if firstField spec = identity then newSpec else spec
  let replaced := specs.any fun spec => firstField spec = identity
  String.intercalate " " (if replaced then kept else kept ++ [newSpec])

/-! ## Replacing the entries of an identity -/

/-- The token in the place of every token of an identity, or at the end where there is none. -/
def upserted (tokens : List Token) (identity : String) (token : Token) : List Token :=
  let kept := tokens.map fun t => if t.identity = identity then token else t
  if tokens.any fun t => t.identity = identity then kept else kept ++ [token]

section Upserted

variable {tokens : List Token} {identity : String} (token : Token)

/-- The tokens of other identities. -/
def others (tokens : List Token) (identity : String) : List Token :=
  tokens.filter fun t => t.identity ≠ identity

theorem length_others (tokens : List Token) (identity : String) :
    (others tokens identity).length + tokens.countP (fun t => t.identity = identity) =
      tokens.length := by
  have h := List.length_eq_countP_add_countP (fun t : Token => decide (t.identity = identity))
    (l := tokens)
  rw [others, ← List.countP_eq_length_filter]
  simp only [decide_eq_true_eq, ne_eq] at h ⊢
  omega

theorem perm_kept (tokens : List Token) (identity : String) :
    (tokens.map fun t => if t.identity = identity then token else t).Perm
      (List.replicate (tokens.countP fun t => t.identity = identity) token ++
        others tokens identity) := by
  induction tokens with
  | nil => exact .refl _
  | cons t tokens ih =>
      by_cases ht : t.identity = identity
      · simpa [others, ht, List.replicate_succ] using ih
      · simp only [List.map_cons, others, List.filter_cons, ne_eq, ht, not_false_eq_true,
          decide_true, if_true, List.countP_cons, decide_false, Bool.false_eq_true, if_false,
          add_zero]
        exact (ih.cons t).trans List.perm_middle.symm

/-- **Replacing** leaves the others and the token once exactly when at most one entry had the
identity. -/
theorem upserted_perm_iff :
    (upserted tokens identity token).Perm (token :: others tokens identity) ↔
      tokens.countP (fun t => t.identity = identity) ≤ 1 := by
  have hlength := length_others tokens identity
  have hperm := perm_kept token tokens identity
  unfold upserted
  by_cases hany : (tokens.any fun t => t.identity = identity) = true
  · have hpos : 0 < tokens.countP fun t => decide (t.identity = identity) := by
      obtain ⟨t, ht, heq⟩ := List.any_eq_true.1 hany
      exact List.countP_pos_iff.2 ⟨t, ht, heq⟩
    simp only [hany, if_true]
    constructor
    · intro h
      have := h.length_eq
      simp only [List.length_map, List.length_cons] at this
      omega
    · intro h
      have hone : tokens.countP (fun t => decide (t.identity = identity)) = 1 := by omega
      rw [hone] at hperm
      exact hperm
  · have hzero : tokens.countP (fun t => decide (t.identity = identity)) = 0 := by
      rw [List.countP_eq_zero]
      intro t ht heq
      exact hany (List.any_eq_true.2 ⟨t, ht, heq⟩)
    rw [hzero] at hperm
    simp only [hany, Bool.false_eq_true, if_false, hzero, Nat.zero_le, iff_true]
    exact (hperm.append_right [token]).trans (List.perm_append_singleton ..)

end Upserted

/-! ## What an accepted spec looks like -/

theorem isSeparator_of_isSpace {c : Char} (h : isSpace c = true) : isSeparator c = true := by
  rw [isSeparator, h]
  rfl

theorem not_isSeparator {c : Char} (hspace : isSpace c = false) (hcomma : c ≠ ',') :
    isSeparator c = false := by
  simp [isSeparator, hspace, hcomma]

theorem comma_not_mem_of_isIdentifier {value : String} (h : isIdentifier value = true) :
    ',' ∉ value.toList := by
  intro hmem
  unfold isIdentifier at h
  cases hvalue : value.toList with
  | nil => simp [hvalue] at hmem
  | cons c rest =>
      rw [hvalue] at h hmem
      simp only [Bool.and_eq_true, List.all_eq_true] at h
      obtain ⟨⟨hstart, -⟩, hrest⟩ := h
      rcases List.mem_cons.1 hmem with rfl | hmem
      · revert hstart
        decide
      · have := hrest _ hmem
        revert this
        decide

theorem comma_not_mem_of_isDigest {digest : String} (h : isDigest (lowerDigest digest) = true) :
    ',' ∉ digest.toList := by
  intro hmem
  rw [isDigest, Bool.and_eq_true, List.all_eq_true] at h
  have hhex := h.2 (Char.toLower ',') (by
    rw [lowerDigest, String.toList_ofList]
    exact List.mem_map_of_mem hmem)
  revert hhex
  decide

theorem comma_not_mem_of_scope {s : String} (h : (Scope.ofText? s).isSome = true) :
    ',' ∉ s.toList := by
  unfold Scope.ofText? at h
  split at h
  · decide
  · decide
  · decide
  · decide
  · cases h

/-- A character of a field that is neither a blank nor `|` is in an alternative. -/
theorem exists_mem_alternatives {field : String} {c : Char} (hmem : c ∈ field.toList)
    (hspace : isSpace c = false) (hbar : c ≠ '|') : ∃ s ∈ alternatives field, c ∈ s.toList := by
  obtain ⟨s, hs, hin⟩ := exists_mem_splitOn hmem hbar
  have hstrip : c ∈ (strip (String.ofList s)).toList :=
    mem_strip (by rwa [String.toList_ofList]) hspace
  refine ⟨strip (String.ofList s), List.mem_filter.2 ⟨List.mem_map_of_mem hs, ?_⟩, hstrip⟩
  rw [decide_eq_true_eq]
  intro hempty
  rw [hempty] at hstrip
  cases hstrip

/-- Accepted fields name the token's identity, and none has a comma. -/
theorem Token.of_ofFields {identity rawScopes digest rawWorkstreams : String} {token : Token}
    (h : Token.ofFields identity rawScopes digest rawWorkstreams = .ok token) :
    token.identity = identity ∧
      ∀ field ∈ [identity, rawScopes, digest, rawWorkstreams], ',' ∉ field.toList := by
  unfold Token.ofFields at h
  dsimp only at h
  split at h
  next hidentity =>
    split at h
    · cases h
    next hdigest =>
      split at h
      · cases h
      · split at h
        · cases h
        next hunknown =>
          split at h
          next hworkstreams =>
            obtain rfl := Except.ok.inj h
            refine ⟨rfl, fun field hfield hcomma => ?_⟩
            simp only [List.mem_cons, List.not_mem_nil, or_false] at hfield
            rcases hfield with rfl | rfl | rfl | rfl
            · exact comma_not_mem_of_isIdentifier hidentity hcomma
            · obtain ⟨s, hs, hin⟩ := exists_mem_alternatives hcomma (by decide) (by decide)
              refine comma_not_mem_of_scope ?_ hin
              by_contra hnone
              refine hunknown ?_
              rw [Bool.not_eq_true', List.isEmpty_eq_false_iff]
              exact List.ne_nil_of_mem (List.mem_filter.2 ⟨hs, by simpa using hnone⟩)
            · exact comma_not_mem_of_isDigest (by simpa using hdigest) hcomma
            · obtain ⟨s, hs, hin⟩ := exists_mem_alternatives hcomma (by decide) (by decide)
              exact comma_not_mem_of_isIdentifier (hworkstreams s (List.mem_dedup.2 hs)) hin
          · cases h
  · cases h

theorem length_fields (spec : String) :
    (fields spec).length = (strip spec).toList.count ':' + 1 := by
  rw [fields, List.length_map, length_splitOn]

theorem head?_fields (spec : String) :
    (fields spec).head? = some (strip (firstField (strip spec))) := by
  rw [fields, List.head?_map, head?_splitOn]
  rfl

/-- An accepted spec has three or four fields, its token the identity of the first, and no
comma. -/
theorem of_parseTokenSpec {spec : String} {token : Token} (h : parseTokenSpec spec = .ok token) :
    (fields spec).head? = some token.identity ∧ 3 ≤ (fields spec).length ∧
      (fields spec).length ≤ 4 ∧ ∀ field ∈ fields spec, ',' ∉ field.toList := by
  unfold parseTokenSpec at h
  split at h
  next identity rawScopes digest hfields =>
    obtain ⟨hidentity, hcomma⟩ := Token.of_ofFields h
    rw [hfields, hidentity]
    have hsub : [identity, rawScopes, digest] ⊆ [identity, rawScopes, digest, ""] :=
      (List.prefix_append _ [""]).subset
    exact ⟨rfl, by simp, by simp, fun field hfield => hcomma field (hsub hfield)⟩
  next identity rawScopes digest rawWorkstreams hfields =>
    obtain ⟨hidentity, hcomma⟩ := Token.of_ofFields h
    rw [hfields, hidentity]
    exact ⟨rfl, by simp, by simp, hcomma⟩
  next => exact absurd h (by simp)

theorem parseTokenSpec_strip (spec : String) :
    parseTokenSpec (strip spec) = parseTokenSpec spec := by
  have hfields : fields (strip spec) = fields spec := by rw [fields, fields, strip_strip]
  unfold parseTokenSpec
  rw [hfields]

section Accepted

variable {spec : String} {token : Token} (h : parseTokenSpec spec = .ok token)

include h

theorem count_colon : 2 ≤ (strip spec).toList.count ':' ∧ (strip spec).toList.count ':' ≤ 3 := by
  obtain ⟨-, hthree, hfour, -⟩ := of_parseTokenSpec h
  rw [length_fields] at hthree hfour
  omega

theorem comma_not_mem : ',' ∉ (strip spec).toList := by
  intro hmem
  obtain ⟨-, -, -, hcomma⟩ := of_parseTokenSpec h
  obtain ⟨field, hfield, hin⟩ := exists_mem_splitOn hmem (by decide : ',' ≠ ':')
  exact hcomma _ (List.mem_map_of_mem hfield)
    (mem_strip (by rwa [String.toList_ofList]) (by decide))

/-- A spec without white space begins with the identity of its token. -/
theorem firstField_of_plain (hplain : ∀ c ∈ spec.toList, isSpace c = false) :
    firstField spec = token.identity := by
  obtain ⟨hhead, -, -, -⟩ := of_parseTokenSpec h
  have hfirst : ∀ c ∈ (firstField spec).toList, isSpace c = false := by
    intro c hc
    rw [firstField, String.toList_ofList] at hc
    exact hplain c (List.takeWhile_subset _ hc)
  rw [head?_fields, strip_of_forall hplain, strip_of_forall hfirst] at hhead
  exact Option.some.inj hhead

end Accepted

/-! ## The entries of a text -/

theorem entries_eq (raw : String) :
    entries raw = (pieces isSeparator raw.toList).map String.ofList := by
  rw [entries, pieces_strip fun _ => isSeparator_of_isSpace]

theorem entries_intercalate (specs : List String) :
    entries (String.intercalate " " specs) = specs.flatMap entries := by
  have hspace : " ".toList = [' '] := rfl
  rw [entries_eq, String.toList_intercalate, hspace,
    pieces_intercalate (isSeparator_of_isSpace (by decide : isSpace ' ' = true)),
    List.map_flatMap, List.flatMap_map]
  exact List.flatMap_congr fun spec _ => (entries_eq spec).symm

/-- An entry is an entry of its own. -/
theorem plain_of_mem_entries {raw spec : String} (h : spec ∈ entries raw) :
    (∀ c ∈ spec.toList, isSpace c = false) ∧ entries spec = [spec] := by
  obtain ⟨piece, hpiece, rfl⟩ := List.mem_map.1 h
  obtain ⟨hne, hsep⟩ := of_mem_pieces hpiece
  rw [entries_eq, String.toList_ofList]
  constructor
  · intro c hc
    have := hsep c hc
    rw [isSeparator, Bool.or_eq_false_iff] at this
    exact this.1
  · rw [pieces_of_forall hne hsep]
    rfl

theorem TokenRegistry.new_eq_ok_iff {tokens : List Token} {registry : TokenRegistry} :
    TokenRegistry.new tokens = .ok registry ↔ registry.tokens = tokens := by
  constructor
  · intro h
    unfold TokenRegistry.new at h
    split at h
    · cases h
    · exact (Except.ok.inj h) ▸ rfl
  · rintro rfl
    have hnone := (firstDuplicate_eq_none_iff [] registry.tokens).2
      ⟨registry.distinct, fun _ _ => List.not_mem_nil⟩
    unfold TokenRegistry.new
    split
    next token hsome =>
      rw [hnone] at hsome
      cases hsome
    next => rfl

/-- What a text is read as: the tokens of its entries, in their order. -/
theorem TokenRegistry.fromSpec_eq_ok_iff {raw : String} {registry : TokenRegistry} :
    TokenRegistry.fromSpec raw = .ok registry ↔
      List.Forall₂ (fun spec token => parseTokenSpec spec = .ok token) (entries raw)
        registry.tokens := by
  unfold TokenRegistry.fromSpec
  split
  next hblank =>
    have hnone : entries raw = [] := by
      rw [entries_eq, pieces_of_all fun c hc => ?_]
      · rfl
      · exact isSeparator_of_isSpace (List.all_eq_true.1 hblank c hc)
    rw [hnone, List.forall₂_nil_left_iff, TokenRegistry.new_eq_ok_iff]
  next =>
    constructor
    · intro h
      cases hread : (entries raw).mapM parseTokenSpec with
      | error e =>
          rw [hread] at h
          cases h
      | ok tokens =>
          rw [hread] at h
          rw [TokenRegistry.new_eq_ok_iff.1 h]
          exact mapM_eq_ok_iff.1 hread
    · intro h
      rw [mapM_eq_ok_iff.2 h]
      exact TokenRegistry.new_eq_ok_iff.2 rfl

theorem TokenRegistry.fromSpec_of_mapM {raw : String} {tokens : List Token}
    (h : (entries raw).mapM parseTokenSpec = .ok tokens) {registry : TokenRegistry} :
    TokenRegistry.fromSpec raw = .ok registry ↔ registry.tokens = tokens := by
  rw [fromSpec_eq_ok_iff, ← mapM_eq_ok_iff, h, Except.ok.injEq, eq_comm]

/-! ## What an update leaves -/

/-- The spec begins with white space. -/
def beginsBlank (spec : String) : Bool := spec.toList.head?.any isSpace

section Update

variable {existing newSpec : String} {registry : TokenRegistry} {token : Token}

/-- What an update is for: the text is read as the old entries of the other identities and the
new one. -/
def UpsertLaw (existing newSpec : String) (registry : TokenRegistry) (token : Token) : Prop :=
  ∃ updated, TokenRegistry.fromSpec (upsertTokenSpec existing newSpec) = .ok updated ∧
    updated.tokens.Perm (token :: others registry.tokens token.identity)

/-- When an update does that: the new spec has no white space inside, it has at most one entry to
replace and begins with the identity if it has one, and its digest is of no other entry. -/
structure Replaceable (registry : TokenRegistry) (newSpec : String) (token : Token) : Prop where
  whole : ∀ c ∈ (strip newSpec).toList, isSpace c = false
  single : registry.tokens.countP (fun t => t.identity = token.identity) ≤ 1
  recognized : beginsBlank newSpec = true → ∀ t ∈ registry.tokens, t.identity ≠ token.identity
  fresh : ∀ t ∈ registry.tokens, t.identity ≠ token.identity → t.digest ≠ token.digest

/-- The new spec is among the edited ones, so its entries are among those of the result. -/
theorem entries_subset_upsert (existing newSpec : String) :
    entries newSpec ⊆ entries (upsertTokenSpec existing newSpec) := by
  intro entry hentry
  rw [upsertTokenSpec, entries_intercalate, List.mem_flatMap]
  refine ⟨newSpec, ?_, hentry⟩
  split
  next hany =>
    obtain ⟨spec, hspec, heq⟩ := List.any_eq_true.1 hany
    exact List.mem_map.2 ⟨spec, hspec, if_pos (by simpa using heq)⟩
  next => exact List.mem_append_right _ (List.mem_singleton_self _)

/-- A text that is neither blank nor without white space inside has two pieces. -/
theorem exists_entries_split {spec : String} (hcomma : ',' ∉ (strip spec).toList)
    (hblank : ∃ c ∈ (strip spec).toList, isSpace c = true) :
    ∃ before after, entries spec = before ++ after ∧ before ≠ [] ∧ after ≠ [] := by
  obtain ⟨c, hmem, hc⟩ := hblank
  obtain ⟨s, t, hsplit⟩ := List.append_of_mem hmem
  have hplain : ∀ d ∈ (strip spec).toList, isSpace d = false → isSeparator d = false :=
    fun d hd hspace => not_isSeparator hspace fun heq => hcomma (heq ▸ hd)
  have hs : s ≠ [] := by
    rintro rfl
    have := isSpace_head_strip spec c (by rw [hsplit]; rfl)
    rw [hc] at this
    cases this
  have ht : t ≠ [] := by
    rintro rfl
    have := isSpace_last_strip spec c (by rw [hsplit]; simp)
    rw [hc] at this
    cases this
  obtain ⟨a, s', rfl⟩ := List.exists_cons_of_ne_nil hs
  obtain ⟨t', b, ht'⟩ := List.eq_nil_or_concat t |>.resolve_left ht
  have ha : isSeparator a = false :=
    hplain a (by simp [hsplit]) (isSpace_head_strip spec a (by rw [hsplit]; rfl))
  have hlast : (strip spec).toList = (a :: s' ++ c :: t') ++ [b] := by
    rw [hsplit, ht', List.concat_eq_append, List.append_assoc, List.cons_append]
    rfl
  have hb : isSeparator b = false :=
    hplain b (by simp [hlast]) (isSpace_last_strip spec b (by rw [hlast, List.getLast?_concat]; rfl))
  refine ⟨(pieces isSeparator (a :: s')).map String.ofList,
    (pieces isSeparator t).map String.ofList, ?_, ?_, ?_⟩
  · rw [entries, hsplit, pieces_append_cons (isSeparator_of_isSpace hc), List.map_append]
  · exact List.map_eq_nil_iff.not.2 (pieces_ne_nil (List.mem_cons_self ..) ha)
  · exact List.map_eq_nil_iff.not.2 (pieces_ne_nil (by simp [ht']) hb)

/-- Accepted specs have two colons each. -/
theorem two_le_sum_count {specs : List String} (hne : specs ≠ [])
    (h : ∀ spec ∈ specs, 2 ≤ spec.toList.count ':') :
    2 ≤ (specs.map fun spec => spec.toList.count ':').sum := by
  obtain ⟨spec, rest, rfl⟩ := List.exists_cons_of_ne_nil hne
  rw [List.map_cons, List.sum_cons]
  exact (h spec (List.mem_cons_self ..)).trans (Nat.le_add_right _ _)

/-- **A spec with white space inside is cut up**, and no text with its pieces is accepted. -/
theorem fromSpec_upsert_ne_ok (htoken : parseTokenSpec newSpec = .ok token)
    (hblank : ∃ c ∈ (strip newSpec).toList, isSpace c = true) (updated : TokenRegistry) :
    TokenRegistry.fromSpec (upsertTokenSpec existing newSpec) ≠ .ok updated := by
  intro hread
  rw [TokenRegistry.fromSpec_eq_ok_iff] at hread
  obtain ⟨before, after, hentries, hbefore, hafter⟩ :=
    exists_entries_split (comma_not_mem htoken) hblank
  have htwo : ∀ entry ∈ entries newSpec, 2 ≤ entry.toList.count ':' := by
    intro entry hentry
    obtain ⟨t, -, ht⟩ :=
      exists_mem_of_forall₂ hread.flip (entries_subset_upsert existing newSpec hentry)
    have hplain := (plain_of_mem_entries hentry).1
    have := (count_colon ht).1
    rwa [strip_of_forall hplain] at this
  have hcount := count_pieces (p := isSeparator) (a := ':') (by decide) (strip newSpec).toList
  have hsum : ((entries newSpec).map fun entry => entry.toList.count ':').sum =
      (strip newSpec).toList.count ':' := by
    rw [← hcount, entries, List.map_map]
    refine congrArg List.sum (List.map_congr_left fun piece _ => ?_)
    rw [Function.comp_apply, String.toList_ofList]
  rw [hentries] at htwo hsum
  rw [List.map_append, List.sum_append] at hsum
  have hone := two_le_sum_count hbefore fun e he => htwo e (List.mem_append_left _ he)
  have hother := two_le_sum_count hafter fun e he => htwo e (List.mem_append_right _ he)
  have := (count_colon htoken).2
  omega

/-- A blank at the front hides the identity; without one the first field is the identity. -/
theorem firstField_of_whole (htoken : parseTokenSpec newSpec = .ok token)
    (hwhole : ∀ c ∈ (strip newSpec).toList, isSpace c = false)
    (hbegins : beginsBlank newSpec = false) : firstField newSpec = token.identity := by
  have hkeep : newSpec.toList.dropWhile isSpace = newSpec.toList := by
    cases hlist : newSpec.toList with
    | nil => rfl
    | cons c l =>
        rw [beginsBlank, hlist] at hbegins
        exact List.dropWhile_cons_of_neg (by simpa using hbegins)
  obtain ⟨post, hpost⟩ := List.rdropWhile_prefix isSpace newSpec.toList
  have hstrip : (strip newSpec).toList = newSpec.toList.rdropWhile isSpace := by
    rw [strip_toList, hkeep]
  have hcolon : ∃ c ∈ (strip newSpec).toList, ¬decide (c ≠ ':') = true :=
    ⟨':', List.count_pos_iff.1 (by have := (count_colon htoken).1; omega), by decide⟩
  have hfirst : firstField newSpec = firstField (strip newSpec) := by
    rw [firstField, firstField, ← hpost, ← hstrip, List.takeWhile_append, if_neg]
    intro hall
    obtain ⟨c, hmem, hc⟩ := hcolon
    have hself := (List.takeWhile_prefix _).eq_of_length hall
    exact hc (List.takeWhile_eq_self_iff.1 hself c hmem)
  rw [hfirst]
  exact firstField_of_plain (by rw [parseTokenSpec_strip, htoken]) hwhole

/-- A first field that begins with a blank is not that of an entry. -/
theorem firstField_ne_of_beginsBlank (hbegins : beginsBlank newSpec = true) {spec : String}
    (hplain : ∀ c ∈ spec.toList, isSpace c = false) : firstField spec ≠ firstField newSpec := by
  intro heq
  cases hlist : newSpec.toList with
  | nil =>
      rw [beginsBlank, hlist] at hbegins
      cases hbegins
  | cons c l =>
      rw [beginsBlank, hlist] at hbegins
      have hc : isSpace c = true := hbegins
      have hmem : c ∈ (firstField newSpec).toList := by
        have hne : c ≠ ':' := by
          rintro rfl
          revert hc
          decide
        simp [firstField, hlist, hne]
      rw [← heq, firstField, String.toList_ofList] at hmem
      have := hplain c (List.takeWhile_subset _ hmem)
      rw [hc] at this
      cases this

/-- The specs and the tokens of an identity are at the same places, and so are their
replacements. -/
theorem forall₂_replaced {specs : List String} {tokens : List Token} (identity : String)
    (h : List.Forall₂ (fun spec token => parseTokenSpec spec = .ok token) specs tokens)
    (hold : ∀ spec ∈ specs, (∀ c ∈ spec.toList, isSpace c = false) ∧ entries spec = [spec])
    (hnew : entries newSpec = [strip newSpec])
    (hparse : parseTokenSpec (strip newSpec) = .ok token) :
    (specs.any fun spec => firstField spec = identity) =
        (tokens.any fun t => t.identity = identity) ∧
      List.Forall₂ (fun spec token => parseTokenSpec spec = .ok token)
        ((specs.map fun spec => if firstField spec = identity then newSpec else spec).flatMap
          entries)
        (tokens.map fun t => if t.identity = identity then token else t) := by
  induction h with
  | nil => exact ⟨rfl, .nil⟩
  | @cons spec t specs tokens hfirst _ ih =>
      obtain ⟨hany, hrest⟩ := ih fun spec hspec => hold spec (List.mem_cons_of_mem _ hspec)
      obtain ⟨hplain, hentry⟩ := hold spec (List.mem_cons_self ..)
      have hfield : firstField spec = t.identity := firstField_of_plain hfirst hplain
      refine ⟨by rw [List.any_cons, List.any_cons, hany, hfield], ?_⟩
      rw [List.map_cons, List.map_cons, List.flatMap_cons, hfield]
      by_cases hidentity : t.identity = identity
      · rw [if_pos hidentity, if_pos hidentity, hnew]
        exact .cons hparse hrest
      · rw [if_neg hidentity, if_neg hidentity, hentry]
        exact .cons hfirst hrest

/-- The text of an update is read as the updated tokens. -/
theorem mapM_upsert (hexisting : TokenRegistry.fromSpec existing = .ok registry)
    (htoken : parseTokenSpec newSpec = .ok token)
    (hwhole : ∀ c ∈ (strip newSpec).toList, isSpace c = false) :
    (entries (upsertTokenSpec existing newSpec)).mapM parseTokenSpec =
      .ok (upserted registry.tokens (firstField newSpec) token) := by
  rw [TokenRegistry.fromSpec_eq_ok_iff] at hexisting
  have hnew : entries newSpec = [strip newSpec] := by
    rw [entries, pieces_of_forall, List.map_singleton, String.ofList_toList]
    · intro hempty
      have := (count_colon htoken).1
      rw [hempty] at this
      cases this
    · exact fun c hc => not_isSeparator (hwhole c hc) fun heq => comma_not_mem htoken (heq ▸ hc)
  have hparse : parseTokenSpec (strip newSpec) = .ok token := by rw [parseTokenSpec_strip, htoken]
  obtain ⟨hany, hkept⟩ := forall₂_replaced (firstField newSpec) hexisting
    (fun spec hspec => plain_of_mem_entries hspec) hnew hparse
  rw [mapM_eq_ok_iff, upsertTokenSpec, entries_intercalate, upserted, splitTokenSpecs, hany]
  split
  · exact hkept
  · rw [List.flatMap_append, List.flatMap_singleton, hnew]
    exact List.rel_append hkept (.cons hparse .nil)

/-- The tokens of an update are those of the law exactly when there is at most one to replace,
and none where the identity is hidden. -/
theorem upserted_perm_iff_single (hexisting : TokenRegistry.fromSpec existing = .ok registry)
    (htoken : parseTokenSpec newSpec = .ok token)
    (hwhole : ∀ c ∈ (strip newSpec).toList, isSpace c = false) :
    (upserted registry.tokens (firstField newSpec) token).Perm
        (token :: others registry.tokens token.identity) ↔
      registry.tokens.countP (fun t => t.identity = token.identity) ≤ 1 ∧
        (beginsBlank newSpec = true → ∀ t ∈ registry.tokens, t.identity ≠ token.identity) := by
  cases hbegins : beginsBlank newSpec with
  | false =>
      rw [firstField_of_whole htoken hwhole hbegins, upserted_perm_iff]
      simp
  | true =>
      rw [TokenRegistry.fromSpec_eq_ok_iff] at hexisting
      have hhidden : ∀ t ∈ registry.tokens, t.identity ≠ firstField newSpec := by
        intro t ht
        obtain ⟨spec, hspec, hread⟩ := exists_mem_of_forall₂ hexisting ht
        have hplain := (plain_of_mem_entries hspec).1
        rw [← firstField_of_plain hread hplain]
        exact firstField_ne_of_beginsBlank hbegins hplain
      have hnone : (registry.tokens.any fun t => t.identity = firstField newSpec) = false := by
        simpa using hhidden
      have hsame : (registry.tokens.map fun t =>
          if t.identity = firstField newSpec then token else t) = registry.tokens :=
        (List.map_congr_left fun t ht => if_neg (hhidden t ht)).trans (List.map_id _)
      have hlength := length_others registry.tokens token.identity
      rw [upserted, hnone, hsame]
      constructor
      · intro hperm
        have := hperm.length_eq
        simp only [Bool.false_eq_true, if_false, List.length_append, List.length_cons,
          List.length_nil] at this
        have hzero : registry.tokens.countP (fun t => t.identity = token.identity) = 0 := by
          omega
        refine ⟨by omega, fun _ t ht heq => ?_⟩
        exact List.countP_eq_zero.1 hzero t ht (by simpa using heq)
      · rintro ⟨-, hfresh⟩
        have hall : others registry.tokens token.identity = registry.tokens :=
          List.filter_eq_self.2 fun t ht => by simpa using hfresh rfl t ht
        rw [hall]
        exact List.perm_append_singleton ..

/-- **An update replaces the entry of an identity** exactly when the spec is replaceable. -/
theorem upsertLaw_iff (hexisting : TokenRegistry.fromSpec existing = .ok registry)
    (htoken : parseTokenSpec newSpec = .ok token) :
    UpsertLaw existing newSpec registry token ↔ Replaceable registry newSpec token := by
  by_cases hwhole : ∀ c ∈ (strip newSpec).toList, isSpace c = false
  · have hread := mapM_upsert hexisting htoken hwhole
    have hiff := upserted_perm_iff_single hexisting htoken hwhole
    constructor
    · rintro ⟨updated, hupdated, hperm⟩
      have htokens := (TokenRegistry.fromSpec_of_mapM hread).1 hupdated
      obtain ⟨hsingle, hrecognized⟩ := hiff.1 (htokens ▸ hperm)
      refine ⟨hwhole, hsingle, hrecognized, fun t ht hne heq => ?_⟩
      have hnodup := (hperm.map Token.digest).nodup_iff.1 updated.distinct
      rw [List.map_cons, List.nodup_cons] at hnodup
      refine hnodup.1 (heq ▸ List.mem_map_of_mem (List.mem_filter.2 ⟨ht, ?_⟩))
      simpa using hne
    · rintro ⟨-, hsingle, hrecognized, hfresh⟩
      have hperm := hiff.2 ⟨hsingle, hrecognized⟩
      have hnodup : ((upserted registry.tokens (firstField newSpec) token).map
          Token.digest).Nodup := by
        rw [(hperm.map Token.digest).nodup_iff, List.map_cons, List.nodup_cons]
        constructor
        · intro hmem
          obtain ⟨t, ht, heq⟩ := List.mem_map.1 hmem
          obtain ⟨ht, hne⟩ := List.mem_filter.1 ht
          exact hfresh t ht (by simpa using hne) heq
        · exact registry.distinct.sublist (List.filter_sublist.map _)
      exact ⟨⟨_, hnodup⟩, (TokenRegistry.fromSpec_of_mapM hread).2 rfl, hperm⟩
  · push Not at hwhole
    constructor
    · rintro ⟨updated, hupdated, -⟩
      refine absurd hupdated (fromSpec_upsert_ne_ok htoken ?_ updated)
      simpa using hwhole
    · rintro ⟨hplain, -⟩
      obtain ⟨c, hmem, hc⟩ := hwhole
      exact absurd (hplain c hmem) hc

end Update

/-- The digest that repeats a digit. -/
def plainDigest (digit : Char) : String := String.ofList (List.replicate 64 digit)

/-- The spec of a reader with such a digest. -/
def readerSpec (digit : Char) : String := "studio" ++ ":" ++ "read" ++ ":" ++ plainDigest digit

/-- The token of the spec. -/
def reader (digit : Char) : Token where
  identity := "studio"
  scopes := [.read]
  digest := plainDigest digit
  identified := by decide
  named := by decide
  distinct := by decide

section Reader

variable {digit : Char} (hhex : isHexDigit digit = true)

include hhex

theorem of_isHexDigit : isSpace digit = false ∧ digit ≠ ':' ∧ digit ≠ ',' ∧ digit.toLower = digit := by
  have hall : ∀ c ∈ "0123456789abcdef".toList,
      isSpace c = false ∧ c ≠ ':' ∧ c ≠ ',' ∧ c.toLower = c := forall_mem_of_all (by decide)
  exact hall digit (by simpa [isHexDigit] using hhex)

theorem isSeparator_readerSpec : ∀ c ∈ (readerSpec digit).toList, isSeparator c = false := by
  obtain ⟨hspace, -, hcomma, -⟩ := of_isHexDigit hhex
  have hfixed : ∀ c ∈ "studio:read:".toList, isSeparator c = false :=
    forall_mem_of_all (by decide)
  intro c hc
  rw [readerSpec, String.toList_append, List.mem_append] at hc
  rcases hc with hc | hc
  · exact hfixed c hc
  · rw [plainDigest, String.toList_ofList] at hc
    obtain rfl := List.eq_of_mem_replicate hc
    exact not_isSeparator hspace hcomma

theorem isSpace_readerSpec : ∀ c ∈ (readerSpec digit).toList, isSpace c = false := by
  intro c hc
  have := isSeparator_readerSpec hhex c hc
  rw [isSeparator, Bool.or_eq_false_iff] at this
  exact this.1

theorem fields_readerSpec : fields (readerSpec digit) = ["studio", "read", plainDigest digit] := by
  obtain ⟨hspace, hcolon, -, -⟩ := of_isHexDigit hhex
  have hdigest : (plainDigest digit).toList = List.replicate 64 digit := String.toList_ofList
  have hsplit : (readerSpec digit).toList.splitOn ':' =
      ["studio".toList, "read".toList, List.replicate 64 digit] := by
    have hlist : (readerSpec digit).toList =
        "studio".toList ++ ':' :: ("read".toList ++ ':' :: List.replicate 64 digit) := by
      rw [readerSpec, String.toList_append, hdigest]
      rfl
    rw [hlist, List.splitOn_append_cons_self_of_not_mem (by decide),
      List.splitOn_append_cons_self_of_not_mem (by decide), List.splitOn_eq_singleton]
    exact fun hmem => hcolon (List.eq_of_mem_replicate hmem).symm
  have hstrip : strip (plainDigest digit) = plainDigest digit :=
    strip_of_forall fun c hc => by
      rw [hdigest] at hc
      rwa [List.eq_of_mem_replicate hc]
  have hstudio : strip (String.ofList "studio".toList) = "studio" := by decide
  have hread : strip (String.ofList "read".toList) = "read" := by decide
  rw [fields, strip_of_forall (isSpace_readerSpec hhex), hsplit, List.map_cons, List.map_cons,
    List.map_singleton, hstudio, hread, ← plainDigest, hstrip]

theorem parseTokenSpec_readerSpec : parseTokenSpec (readerSpec digit) = .ok (reader digit) := by
  obtain ⟨-, -, -, hlower⟩ := of_isHexDigit hhex
  have hdigest : lowerDigest (plainDigest digit) = plainDigest digit := by
    rw [lowerDigest, plainDigest, String.toList_ofList, List.map_replicate, hlower]
  have hvalid : isDigest (plainDigest digit) = true := by
    rw [isDigest, plainDigest, String.toList_ofList, List.length_replicate, Bool.and_eq_true,
      List.all_replicate]
    exact ⟨rfl, hhex⟩
  have hidentity : isIdentifier "studio" = true := by decide
  have hscopes : alternatives "read" = ["read"] := by decide
  have hworkstreams : alternatives "" = [] := by decide
  have hofFields : Token.ofFields "studio" "read" (plainDigest digit) "" = .ok (reader digit) := by
    unfold Token.ofFields
    simp only [hidentity, hdigest, hvalid, hscopes, hworkstreams]
    rfl
  rw [parseTokenSpec, fields_readerSpec hhex]
  exact hofFields

theorem entries_readerSpec : entries (readerSpec digit) = [readerSpec digit] := by
  rw [entries_eq, pieces_of_forall _ (isSeparator_readerSpec hhex), List.map_singleton,
    String.ofList_toList]
  rw [readerSpec, String.toList_append]
  exact List.append_ne_nil_of_left_ne_nil (by decide) _

end Reader

/-- A token is rotated. -/
theorem upsertLaw_rotated :
    TokenRegistry.fromSpec (readerSpec 'a') = .ok ⟨[reader 'a'], List.nodup_singleton _⟩ ∧
      parseTokenSpec (readerSpec 'b') = .ok (reader 'b') ∧
      UpsertLaw (readerSpec 'a') (readerSpec 'b') ⟨[reader 'a'], List.nodup_singleton _⟩
        (reader 'b') := by
  have hread : TokenRegistry.fromSpec (readerSpec 'a') =
      .ok ⟨[reader 'a'], List.nodup_singleton _⟩ := by
    rw [TokenRegistry.fromSpec_eq_ok_iff, entries_readerSpec (by decide)]
    exact .cons (parseTokenSpec_readerSpec (by decide)) .nil
  have htoken : parseTokenSpec (readerSpec 'b') = .ok (reader 'b') :=
    parseTokenSpec_readerSpec (by decide)
  have hplain : ∀ c ∈ (readerSpec 'b').toList, isSpace c = false := isSpace_readerSpec (by decide)
  refine ⟨hread, htoken, (upsertLaw_iff hread htoken).2 ?_⟩
  exact
    { whole := by rwa [strip_of_forall hplain]
      single := by decide
      recognized := fun h => absurd h (by decide)
      fresh := fun t ht hne => absurd (List.mem_singleton.1 ht ▸ rfl) hne }

/-- Two entries of one identity, as a rotation by hand leaves them: the new spec takes the place of
both, and the gateway does not start. -/
theorem rotation_refused :
    ∃ registry, TokenRegistry.fromSpec (String.intercalate " " [readerSpec 'a', readerSpec 'b']) =
        .ok registry ∧
      parseTokenSpec (readerSpec 'c') = .ok (reader 'c') ∧
      ¬ UpsertLaw (String.intercalate " " [readerSpec 'a', readerSpec 'b']) (readerSpec 'c')
        registry (reader 'c') := by
  have hdistinct : ([reader 'a', reader 'b'].map Token.digest).Nodup := by
    have hne : plainDigest 'a' ≠ plainDigest 'b' := by
      intro h
      have := congrArg String.toList h
      rw [plainDigest, plainDigest, String.toList_ofList, String.toList_ofList] at this
      exact absurd (List.replicate_right_injective (by decide : (64 : Nat) ≠ 0) this) (by decide)
    simpa [reader] using hne
  have hread : TokenRegistry.fromSpec (String.intercalate " " [readerSpec 'a', readerSpec 'b']) =
      .ok ⟨[reader 'a', reader 'b'], hdistinct⟩ := by
    rw [TokenRegistry.fromSpec_eq_ok_iff, entries_intercalate, List.flatMap_cons,
      List.flatMap_singleton, entries_readerSpec (by decide), entries_readerSpec (by decide)]
    exact .cons (parseTokenSpec_readerSpec (by decide))
      (.cons (parseTokenSpec_readerSpec (by decide)) .nil)
  have htoken : parseTokenSpec (readerSpec 'c') = .ok (reader 'c') :=
    parseTokenSpec_readerSpec (by decide)
  have hplain : ∀ c ∈ (readerSpec 'c').toList, isSpace c = false := isSpace_readerSpec (by decide)
  have hwhole : ∀ c ∈ (strip (readerSpec 'c')).toList, isSpace c = false := by
    rwa [strip_of_forall hplain]
  refine ⟨_, hread, htoken, ?_⟩
  rintro ⟨updated, hupdated, -⟩
  have htokens := (TokenRegistry.fromSpec_of_mapM (mapM_upsert hread htoken hwhole)).1 hupdated
  rw [firstField_of_whole htoken hwhole (by decide)] at htokens
  have htwice : updated.tokens = [reader 'c', reader 'c'] := htokens
  have hnodup := updated.distinct
  rw [htwice] at hnodup
  simp [reader] at hnodup

end AiStudio.Gateway
