import AiStudio.Data.Pieces
import AiStudio.Data.Traverse

/-!
# Connection strings

How libpq reads a connection string: a URI if it begins as one, else keywords and values. Which
keywords there are is an argument, and the database a string without one leads to is another. The
text is read up to the first NUL, as every C string.

- `decode_suffix`: percent-decoding keeps an end without escapes.
- `uri_database`: the path of a URI names the database unless a parameter does.
- `Unread.database`: so does the last setting of a string of keywords and values.
-/

set_option autoImplicit false

namespace AiStudio.Data.Conninfo

/-- A text as the server reads it. -/
abbrev Bytes := List UInt8

/-- The bytes of a text. -/
def utf8 (text : List Char) : Bytes := text.flatMap String.utf8EncodeChar

/-- A keyword and its value. -/
abbrev Setting := Bytes × Bytes

/-- A setting's keyword, as it is written. -/
def key (keyword : String) : Bytes := utf8 keyword.toList

/-- `isspace` of the C locale. -/
def isSpaceC (c : Char) : Bool := c = ' ' || (9 ≤ c.toNat && c.toNat ≤ 13)

/-! ## URIs -/

/-- The value of a hexadecimal digit. -/
def hexDigit? (c : Char) : Option Nat :=
  if c.isDigit then some (c.toNat - '0'.toNat)
  else if 'a' ≤ c ∧ c ≤ 'f' then some (c.toNat - 'a'.toNat + 10)
  else if 'A' ≤ c ∧ c ≤ 'F' then some (c.toNat - 'A'.toNat + 10)
  else none

/-- The byte of an escape; a NUL is refused. -/
def escape? (hi lo : Char) : Option UInt8 :=
  (hexDigit? hi).bind fun h => (hexDigit? lo).bind fun l =>
    if h * 16 + l = 0 then none else some (UInt8.ofNat (h * 16 + l))

/-- `conninfo_uri_decode`. -/
def decode : List Char → Option Bytes
  | [] => some []
  | c :: cs =>
      if c = '%' then
        match cs with
        | hi :: lo :: cs => (escape? hi lo).bind fun b => (decode cs).map (b :: ·)
        | _ => none
      else (decode cs).map (String.utf8EncodeChar c ++ ·)

/-- A decoded setting, if the text is not empty. -/
def textSetting (keyword : String) (text : List Char) : Option (List Setting) :=
  if text = [] then some [] else (decode text).map fun value => [(key keyword, value)]

/-- What stands before an `@` that no `/` precedes, and what is behind it. -/
def splitCredentials (rest : List Char) : List Char × List Char :=
  match rest.dropWhile fun c => c ≠ '@' && c ≠ '/' with
  | '@' :: hosts => (rest.takeWhile fun c => c ≠ '@' && c ≠ '/', hosts)
  | _ => ([], rest)

/-- Where in the list of hosts the next character stands. -/
inductive HostPhase where
  | start
  | name
  | bracket (empty : Bool)
  | closed
  | port
  deriving DecidableEq

/-- The hosts and ports read, each with its commas. -/
structure HostScan where
  phase : HostPhase
  host : List Char
  port : List Char
  deriving DecidableEq

namespace HostScan

/-- Whether the list of hosts ends before the character. -/
def stops (s : HostScan) (c : Char) : Bool :=
  match s.phase with
  | .bracket _ => false
  | _ => c = '/' || c = '?'

/-- A comma begins the next host. -/
def next (s : HostScan) : HostScan := ⟨.start, s.host ++ [','], s.port ++ [',']⟩

/-- In the name of a host. -/
def stepName (s : HostScan) (c : Char) : HostScan :=
  if c = ':' then { s with phase := .port }
  else if c = ',' then s.next
  else { s with phase := .name, host := s.host ++ [c] }

/-- One character of the list; a bracketed host may neither be empty nor run on behind the bracket. -/
def step (s : HostScan) (c : Char) : Option HostScan :=
  match s.phase with
  | .start => some (if c = '[' then { s with phase := .bracket true } else s.stepName c)
  | .name => some (s.stepName c)
  | .bracket empty =>
      if c = ']' then if empty then none else some { s with phase := .closed }
      else some { s with phase := .bracket false, host := s.host ++ [c] }
  | .closed =>
      if c = ':' then some { s with phase := .port }
      else if c = ',' then some s.next
      else none
  | .port => some (if c = ',' then s.next else { s with port := s.port ++ [c] })

/-- Whether a bracket is open. -/
def isOpen (s : HostScan) : Bool :=
  match s.phase with
  | .bracket _ => true
  | _ => false

end HostScan

/-- The list of hosts and what is behind it. -/
def scanHosts (s : HostScan) : List Char → Option (HostScan × List Char)
  | [] => if s.isOpen then none else some (s, [])
  | c :: cs =>
      if s.stops c then some (s, c :: cs) else (s.step c).bind fun s => scanHosts s cs

/-- The path and the query behind the hosts. -/
def splitPath (rest : List Char) : List Char × List Char :=
  match rest with
  | '/' :: rest => (rest.takeWhile (· ≠ '?'), (rest.dropWhile (· ≠ '?')).drop 1)
  | _ => ([], rest.drop 1)

/-- The parameters of a query. -/
def queryParts (query : List Char) : List (List Char) :=
  let parts := query.splitOn '&'
  if parts.getLast? = some [] then parts.dropLast else parts

section Reading

variable (known : Bytes → Bool)

/-- The setting of a parameter; `ssl=true` is another name for `sslmode=require`. -/
def queryParam (part : List Char) : Option Setting :=
  match part.splitOn '=' with
  | [keyword, value] =>
      (decode keyword).bind fun keyword => (decode value).bind fun value =>
        if keyword = key "ssl" ∧ value = key "true" then
          if known (key "sslmode") then some (key "sslmode", key "require") else none
        else if known keyword then some (keyword, value) else none
  | _ => none

/-- `conninfo_uri_parse`, behind the prefix. -/
def uriSettings (rest : List Char) : Option (List Setting) := do
  let credentials := (splitCredentials rest).1
  let user ← textSetting "user" (credentials.takeWhile (· ≠ ':'))
  let password ← textSetting "password" ((credentials.dropWhile (· ≠ ':')).drop 1)
  let (hosts, rest) ← scanHosts ⟨.start, [], []⟩ (splitCredentials rest).2
  let host ← textSetting "host" hosts.host
  let port ← textSetting "port" hosts.port
  let dbname ← textSetting "dbname" (splitPath rest).1
  let params ← (queryParts (splitPath rest).2).mapM (queryParam known)
  return user ++ password ++ host ++ port ++ dbname ++ params

/-! ## Keywords and values -/

/-- Where in a string of keywords and values the next character stands. -/
inductive Phase where
  | between
  | keyword (keyword : List Char)
  | afterKeyword (keyword : List Char)
  | beforeValue (keyword : List Char)
  | bare (keyword value : List Char)
  | bareEscaped (keyword value : List Char)
  | quoted (keyword value : List Char)
  | quotedEscaped (keyword value : List Char)
  deriving DecidableEq

/-- The settings read and the phase. -/
structure Scan where
  settings : List Setting
  phase : Phase
  deriving DecidableEq

/-- `conninfo_storeval`. -/
def Scan.store (s : Scan) (keyword value : List Char) : Option Scan :=
  if known (utf8 keyword) then some ⟨s.settings ++ [(utf8 keyword, utf8 value)], .between⟩ else none

/-- In a value without quotes. -/
def Scan.stepBare (s : Scan) (keyword value : List Char) (c : Char) : Option Scan :=
  if isSpaceC c then s.store known keyword value
  else if c = '\\' then some { s with phase := .bareEscaped keyword value }
  else some { s with phase := .bare keyword (value ++ [c]) }

/-- One character. -/
def Scan.step (s : Scan) (c : Char) : Option Scan :=
  match s.phase with
  | .between =>
      if isSpaceC c then some s
      else if c = '=' then some { s with phase := .beforeValue [] }
      else some { s with phase := .keyword [c] }
  | .keyword keyword =>
      if c = '=' then some { s with phase := .beforeValue keyword }
      else if isSpaceC c then some { s with phase := .afterKeyword keyword }
      else some { s with phase := .keyword (keyword ++ [c]) }
  | .afterKeyword keyword =>
      if c = '=' then some { s with phase := .beforeValue keyword }
      else if isSpaceC c then some s
      else none
  | .beforeValue keyword =>
      if isSpaceC c then some s
      else if c = '\x27' then some { s with phase := .quoted keyword [] }
      else s.stepBare known keyword [] c
  | .bare keyword value => s.stepBare known keyword value c
  | .bareEscaped keyword value => some { s with phase := .bare keyword (value ++ [c]) }
  | .quoted keyword value =>
      if c = '\\' then some { s with phase := .quotedEscaped keyword value }
      else if c = '\x27' then s.store known keyword value
      else some { s with phase := .quoted keyword (value ++ [c]) }
  | .quotedEscaped keyword value => some { s with phase := .quoted keyword (value ++ [c]) }

/-- The end of the string. -/
def Scan.finish (s : Scan) : Option (List Setting) :=
  match s.phase with
  | .between => some s.settings
  | .beforeValue keyword => (s.store known keyword []).map Scan.settings
  | .bare keyword value => (s.store known keyword value).map Scan.settings
  | .bareEscaped keyword value => (s.store known keyword value).map Scan.settings
  | _ => none

/-- `conninfo_parse`. -/
def kvSettings (text : List Char) : Option (List Setting) :=
  (text.foldlM (Scan.step known) ⟨[], .between⟩).bind (Scan.finish known)

/-! ## The database -/

/-- What is behind the prefix of a URI. -/
def uriRest? (text : List Char) : Option (List Char) :=
  if "postgresql://".toList <+: text then some (text.drop 13)
  else if "postgres://".toList <+: text then some (text.drop 11)
  else none

/-- `parse_connection_string`. -/
def settings (conninfo : String) : Option (List Setting) :=
  let text := conninfo.toList.takeWhile (· ≠ '\x00')
  match uriRest? text with
  | some rest => uriSettings known rest
  | none => kvSettings known text

/-- The last value of a keyword. -/
def lastValue (keyword : Bytes) (settings : List Setting) : Option Bytes :=
  (settings.filter (·.1 = keyword)).getLast?.map Prod.snd

/-- The database a connection is made to, if the string is accepted; `otherwise` where it names
none. -/
def database (otherwise : Bytes) (conninfo : String) : Option Bytes :=
  (settings known conninfo).map fun settings =>
    match lastValue (key "dbname") settings with
    | none => otherwise
    | some name => if name = [] then otherwise else name

end Reading

/-! ## Percent-decoding -/

theorem decode_cons {c : Char} (hc : c ≠ '%') (cs : List Char) :
    decode (c :: cs) = (decode cs).map (String.utf8EncodeChar c ++ ·) := by
  rw [decode.eq_def]
  exact if_neg hc

theorem decode_escape (hi lo : Char) (cs : List Char) :
    decode ('%' :: hi :: lo :: cs) = (escape? hi lo).bind fun b => (decode cs).map (b :: ·) := by
  rw [decode.eq_def]
  exact if_pos rfl

/-- A text without an escape stands for itself. -/
theorem decode_plain {text : List Char} (h : '%' ∉ text) : decode text = some (utf8 text) := by
  induction text with
  | nil => rfl
  | cons c text ih =>
      obtain ⟨hc, hrest⟩ := not_or.mp (mt List.mem_cons.mpr h)
      rw [decode_cons (Ne.symm hc), ih hrest]
      rfl

theorem escape?_eq_none {hi lo : Char} (h : hexDigit? hi = none ∨ hexDigit? lo = none) :
    escape? hi lo = none := by
  unfold escape?
  rcases h with hhi | hlo
  · rw [hhi]
    rfl
  · rw [hlo]
    cases hexDigit? hi with
    | none => rfl
    | some n => rfl

/-- An end without an escape, at whose first character none can end, is kept. -/
theorem decode_suffix {u : Char} {us : List Char} (hu : hexDigit? u = none)
    (hplain : '%' ∉ u :: us) : ∀ (text : List Char) {bytes : Bytes},
    decode (text ++ u :: us) = some bytes → ∃ before, bytes = before ++ utf8 (u :: us) := by
  intro text
  induction hn : text.length using Nat.strong_induction_on generalizing text with
  | _ n ih =>
      intro bytes h
      match text with
      | [] =>
          rw [List.nil_append, decode_plain hplain] at h
          exact ⟨[], (Option.some.inj h).symm⟩
      | c :: text =>
          by_cases hc : c = '%'
          · subst hc
            match text with
            | [] =>
                match us with
                | [] => cases h
                | lo :: us =>
                    rw [List.singleton_append, decode_escape, escape?_eq_none (.inl hu)] at h
                    cases h
            | [hi] =>
                rw [List.cons_append, List.singleton_append, decode_escape,
                  escape?_eq_none (.inr hu)] at h
                cases h
            | hi :: lo :: text =>
                rw [List.cons_append, List.cons_append, List.cons_append, decode_escape] at h
                obtain ⟨b, -, h⟩ := Option.bind_eq_some_iff.mp h
                obtain ⟨rest, hrest, rfl⟩ := Option.map_eq_some_iff.mp h
                obtain ⟨before, rfl⟩ := ih text.length (by simp at hn; omega) text rfl hrest
                exact ⟨b :: before, rfl⟩
          · rw [List.cons_append, decode_cons hc] at h
            obtain ⟨rest, hrest, rfl⟩ := Option.map_eq_some_iff.mp h
            obtain ⟨before, rfl⟩ := ih text.length (by simp at hn; omega) text rfl hrest
            exact ⟨_, (List.append_assoc _ _ _).symm⟩

/-! ## The path of a URI -/

/-- A keyword's last setting decides. -/
theorem lastValue_append {keyword value : Bytes} {before later : List Setting}
    (hlater : ∀ setting ∈ later, setting.1 ≠ keyword) :
    lastValue keyword (before ++ (keyword, value) :: later) = some value := by
  have hnone : later.filter (·.1 = keyword) = [] :=
    List.filter_eq_nil_iff.mpr fun setting hmem => by simpa using hlater setting hmem
  rw [lastValue, List.filter_append, List.filter_cons_of_pos (by simp), hnone]
  simp

section Hosts

variable {network more : List Char}

/-- The hosts are read up to the path. -/
theorem scanHosts_append (hnetwork : ∀ c ∈ network, c ≠ '/' ∧ c ≠ '?') (s : HostScan) :
    scanHosts s (network ++ '/' :: more) =
      (network.foldlM HostScan.step s).bind fun s => scanHosts s ('/' :: more) := by
  induction network generalizing s with
  | nil => rfl
  | cons c network ih =>
      obtain ⟨hslash, hquery⟩ := hnetwork c (List.mem_cons_self ..)
      have hstops : s.stops c = false := by
        unfold HostScan.stops
        split
        · rfl
        · simp [hslash, hquery]
      rw [List.cons_append, scanHosts, hstops, List.foldlM_cons]
      cases hstep : s.step c with
      | none => rfl
      | some s' => exact ih (fun d hd => hnetwork d (List.mem_cons_of_mem _ hd)) s'

theorem isOpen_stepName (s : HostScan) (c : Char) : (s.stepName c).isOpen = false := by
  unfold HostScan.stepName
  split
  · rfl
  · split
    · rfl
    · rfl

/-- A bracket is opened by the character `[` and stays open up to the next `]`. -/
theorem step_isOpen {s s' : HostScan} {c : Char} (h : s.step c = some s') (hopen : s'.isOpen = true) :
    c = '[' ∨ s.isOpen = true ∧ c ≠ ']' := by
  unfold HostScan.step at h
  cases hphase : s.phase with
  | start =>
      rw [hphase] at h
      by_cases hc : c = '['
      · exact .inl hc
      · rw [if_neg hc] at h
        obtain rfl := Option.some.inj h
        rw [isOpen_stepName] at hopen
        cases hopen
  | name =>
      rw [hphase] at h
      obtain rfl := Option.some.inj h
      rw [isOpen_stepName] at hopen
      cases hopen
  | bracket empty =>
      rw [hphase] at h
      refine .inr ⟨by rw [HostScan.isOpen, hphase], ?_⟩
      rintro rfl
      cases empty with
      | true => cases h
      | false =>
          obtain rfl := Option.some.inj h
          cases hopen
  | closed =>
      rw [hphase] at h
      dsimp only at h
      split at h
      · obtain rfl := Option.some.inj h
        cases hopen
      · split at h
        · obtain rfl := Option.some.inj h
          cases hopen
        · cases h
  | port =>
      rw [hphase] at h
      obtain rfl := Option.some.inj h
      split at hopen
      · cases hopen
      · cases hopen

/-- A bracket that is open at the end was never closed. -/
theorem foldlM_isOpen {s s' : HostScan} (h : network.foldlM HostScan.step s = some s')
    (hopen : s'.isOpen = true) :
    s.isOpen = true ∧ ']' ∉ network ∨ ∃ a b, network = a ++ '[' :: b ∧ ']' ∉ b := by
  induction network generalizing s with
  | nil =>
      obtain rfl := Option.some.inj h
      exact .inl ⟨hopen, List.not_mem_nil⟩
  | cons c network ih =>
      rw [List.foldlM_cons] at h
      obtain ⟨s₁, hstep, hrest⟩ := Option.bind_eq_some_iff.mp h
      rcases ih hrest with ⟨hopen₁, hclosed⟩ | ⟨a, b, hab, hb⟩
      · rcases step_isOpen hstep hopen₁ with rfl | ⟨hs, hc⟩
        · exact .inr ⟨[], network, rfl, hclosed⟩
        · exact .inl ⟨hs, List.not_mem_cons_of_ne_of_not_mem (Ne.symm hc) hclosed⟩
      · exact .inr ⟨c :: a, b, congrArg (c :: ·) hab, hb⟩

/-- Without a bracket left open the path begins at the first slash. -/
theorem scanHosts_network {hosts : HostScan} {rest : List Char}
    (hnetwork : ∀ c ∈ network, c ≠ '/' ∧ c ≠ '?')
    (hbrackets : ∀ a b, network = a ++ '[' :: b → ']' ∈ b)
    (h : scanHosts ⟨.start, [], []⟩ (network ++ '/' :: more) = some (hosts, rest)) :
    rest = '/' :: more := by
  rw [scanHosts_append hnetwork] at h
  obtain ⟨s, hs, h⟩ := Option.bind_eq_some_iff.mp h
  have hclosed : s.isOpen = false := by
    by_contra hopen
    rcases foldlM_isOpen hs (eq_true_of_ne_false hopen) with ⟨hstart, -⟩ | ⟨a, b, hab, hb⟩
    · cases hstart
    · exact hb (hbrackets a b hab)
  have hstops : s.stops '/' = true := by
    unfold HostScan.stops
    unfold HostScan.isOpen at hclosed
    split
    · rename_i hphase
      rw [hphase] at hclosed
      cases hclosed
    · rfl
  rw [scanHosts, hstops, if_pos rfl] at h
  exact (congrArg Prod.snd (Option.some.inj h)).symm

/-- Credentials stand before the first slash. -/
theorem splitCredentials_network (more : List Char) (hnetwork : ∀ c ∈ network, c ≠ '/') :
    ∃ network', network' <:+ network ∧
      (splitCredentials (network ++ '/' :: more)).2 = network' ++ '/' :: more := by
  unfold splitCredentials
  cases hdrop : network.dropWhile fun c => c ≠ '@' && c ≠ '/' with
  | nil =>
      have hall : ∀ c ∈ network, (c ≠ '@' && c ≠ '/') = true := List.dropWhile_eq_nil_iff.mp hdrop
      rw [List.dropWhile_append_of_pos hall]
      exact ⟨network, List.suffix_rfl, rfl⟩
  | cons c network' =>
      have hsuffix : c :: network' <:+ network := hdrop ▸ List.dropWhile_suffix _
      have hat : c = '@' := by
        have hstop := List.head?_dropWhile_not (fun c => c ≠ '@' && c ≠ '/') network
        rw [hdrop] at hstop
        have hslash := hnetwork c (hsuffix.subset (List.mem_cons_self ..))
        simpa [hslash] using hstop
      have htotal : (network ++ '/' :: more).dropWhile (fun c => c ≠ '@' && c ≠ '/') =
          '@' :: (network' ++ '/' :: more) := by
        rw [List.dropWhile_append, hdrop, hat]
        rfl
      rw [htotal]
      exact ⟨network', (List.suffix_cons c network').trans hsuffix, rfl⟩

end Hosts

section Parameters

variable {known : Bytes → Bool}

/-- The keyword of a parameter is the decoded text before `=`. -/
theorem queryParam_keyword {part : List Char} {setting : Setting}
    (h : queryParam known part = some setting) :
    decode (part.takeWhile (· ≠ '=')) = some setting.1 ∨ setting.1 = key "sslmode" := by
  unfold queryParam at h
  split at h
  · rename_i keyword value hparts
    have hkeyword : keyword = part.takeWhile (· ≠ '=') := by
      have hhead := head?_splitOn '=' part
      rw [hparts] at hhead
      exact Option.some.inj hhead
    obtain ⟨k, hk, h⟩ := Option.bind_eq_some_iff.mp h
    obtain ⟨v, -, h⟩ := Option.bind_eq_some_iff.mp h
    split at h
    · split at h
      · obtain rfl := Option.some.inj h
        exact .inr rfl
      · cases h
    · split at h
      · obtain rfl := Option.some.inj h
        exact .inl (hkeyword ▸ hk)
      · cases h
  · cases h

/-- No parameter sets the database. -/
def NoDbname (query : List Char) : Prop :=
  ∀ part ∈ queryParts query, decode (part.takeWhile (· ≠ '=')) ≠ some (key "dbname")

theorem NoDbname.params {query : List Char} (h : NoDbname query) {params : List Setting}
    (hparams : (queryParts query).mapM (queryParam known) = some params) :
    ∀ setting ∈ params, setting.1 ≠ key "dbname" := by
  intro setting hmem hkey
  obtain ⟨part, hpart, hsetting⟩ :=
    exists_mem_of_forall₂ (forall₂_of_mapM_eq_some hparams) hmem
  rcases queryParam_keyword hsetting with hdecode | hssl
  · exact h part hpart (hkey ▸ hdecode)
  · exact absurd (hkey.symm.trans hssl) (by decide)

/-- The path of a URI names the database, if no bracket is left open before it and no parameter
names another. -/
theorem uri_database {network more : List Char} {read : List Setting}
    (hnetwork : ∀ c ∈ network, c ≠ '/' ∧ c ≠ '?')
    (hbrackets : ∀ a b, network = a ++ '[' :: b → ']' ∈ b)
    (hpath : more.takeWhile (· ≠ '?') ≠ [])
    (hquery : NoDbname ((more.dropWhile (· ≠ '?')).drop 1))
    (h : uriSettings known (network ++ '/' :: more) = some read) :
    ∃ name, decode (more.takeWhile (· ≠ '?')) = some name ∧
      lastValue (key "dbname") read = some name := by
  obtain ⟨network', ⟨before, hbefore⟩, hcredentials⟩ :=
    splitCredentials_network more fun c hc => (hnetwork c hc).1
  have hnetwork' : ∀ c ∈ network', c ≠ '/' ∧ c ≠ '?' := fun c hc =>
    hnetwork c (hbefore ▸ List.mem_append_right _ hc)
  have hbrackets' : ∀ a b, network' = a ++ '[' :: b → ']' ∈ b := fun a b hab =>
    hbrackets (before ++ a) b (by rw [← hbefore, hab, List.append_assoc])
  unfold uriSettings at h
  obtain ⟨user, -, h⟩ := Option.bind_eq_some_iff.mp h
  obtain ⟨password, -, h⟩ := Option.bind_eq_some_iff.mp h
  obtain ⟨⟨hosts, rest⟩, hhosts, h⟩ := Option.bind_eq_some_iff.mp h
  obtain ⟨host, -, h⟩ := Option.bind_eq_some_iff.mp h
  obtain ⟨port, -, h⟩ := Option.bind_eq_some_iff.mp h
  obtain ⟨dbname, hdbname, h⟩ := Option.bind_eq_some_iff.mp h
  obtain ⟨params, hparams, h⟩ := Option.bind_eq_some_iff.mp h
  obtain rfl := Option.some.inj h
  rw [hcredentials] at hhosts
  obtain rfl := scanHosts_network hnetwork' hbrackets' hhosts
  rw [textSetting, splitPath, if_neg hpath] at hdbname
  obtain ⟨name, hname, rfl⟩ := Option.map_eq_some_iff.mp hdbname
  refine ⟨name, hname, ?_⟩
  rw [List.append_assoc, List.singleton_append]
  exact lastValue_append (hquery.params hparams)

end Parameters

/-! ## The last setting -/

section Words

variable {known : Bytes → Bool} {settings : List Setting} {keyword value : List Char}

/-- The same scan with settings read before it. -/
def Scan.onto (before : List Setting) (s : Scan) : Scan := ⟨before ++ s.settings, s.phase⟩

theorem store_onto (before : List Setting) (s : Scan) :
    (s.onto before).store known keyword value =
      (s.store known keyword value).map (Scan.onto before) := by
  unfold Scan.store
  split
  · exact congrArg (fun l => some (Scan.mk l .between)) (List.append_assoc before _ _)
  · rfl

theorem stepBare_onto (before : List Setting) (s : Scan) (c : Char) :
    (s.onto before).stepBare known keyword value c =
      (s.stepBare known keyword value c).map (Scan.onto before) := by
  unfold Scan.stepBare
  split
  · exact store_onto before s
  · split
    · rfl
    · rfl

theorem step_onto (before : List Setting) (s : Scan) (c : Char) :
    (s.onto before).step known c = (s.step known c).map (Scan.onto before) := by
  unfold Scan.step
  rw [show (s.onto before).phase = s.phase from rfl]
  cases s.phase with
  | between =>
      dsimp only
      split
      · rfl
      · split
        · rfl
        · rfl
  | keyword keyword =>
      dsimp only
      split
      · rfl
      · split
        · rfl
        · rfl
  | afterKeyword keyword =>
      dsimp only
      split
      · rfl
      · split
        · rfl
        · rfl
  | beforeValue keyword =>
      dsimp only
      split
      · rfl
      · split
        · rfl
        · exact stepBare_onto before s c
  | bare keyword value => exact stepBare_onto before s c
  | bareEscaped keyword value => rfl
  | quoted keyword value =>
      dsimp only
      split
      · rfl
      · split
        · exact store_onto before s
        · rfl
  | quotedEscaped keyword value => rfl

theorem foldlM_onto (before : List Setting) (text : List Char) (s : Scan) :
    text.foldlM (Scan.step known) (s.onto before) =
      (text.foldlM (Scan.step known) s).map (Scan.onto before) := by
  induction text generalizing s with
  | nil => rfl
  | cons c text ih =>
      rw [List.foldlM_cons, List.foldlM_cons, step_onto]
      cases s.step known c with
      | none => rfl
      | some s' => exact ih s'

theorem finish_onto (before : List Setting) (s : Scan) :
    (s.onto before).finish known = (s.finish known).map (before ++ ·) := by
  have hstore (keyword value : List Char) :
      ((s.onto before).store known keyword value).map Scan.settings =
        ((s.store known keyword value).map Scan.settings).map (before ++ ·) := by
    rw [store_onto, Option.map_map, Option.map_map]
    rfl
  unfold Scan.finish
  rw [show (s.onto before).phase = s.phase from rfl]
  cases s.phase with
  | between => rfl
  | beforeValue keyword => exact hstore keyword []
  | bare keyword value => exact hstore keyword value
  | bareEscaped keyword value => exact hstore keyword value
  | keyword _ => rfl
  | afterKeyword _ => rfl
  | quoted _ _ => rfl
  | quotedEscaped _ _ => rfl

/-- What is behind a whole setting is read as a string of its own. -/
theorem finish_between (text : List Char) :
    (text.foldlM (Scan.step known) ⟨settings, .between⟩).bind (Scan.finish known) =
      (kvSettings known text).map (settings ++ ·) := by
  have honto : Scan.mk settings .between = Scan.onto settings ⟨[], .between⟩ := by
    rw [Scan.onto, List.append_nil]
  rw [honto, foldlM_onto, kvSettings]
  cases text.foldlM (Scan.step known) ⟨[], .between⟩ with
  | none => rfl
  | some s => exact finish_onto settings s

/-- A blank begins nothing. -/
theorem kvSettings_blank {c : Char} (hc : isSpaceC c = true) (text : List Char) :
    kvSettings known (c :: text) = kvSettings known text := by
  have hstep : Scan.step known ⟨[], .between⟩ c = some ⟨[], .between⟩ := if_pos hc
  rw [kvSettings, List.foldlM_cons, hstep]
  rfl

theorem step_bare {c : Char} (hspace : isSpaceC c = false) (hslash : c ≠ '\\') :
    Scan.step known ⟨settings, .bare keyword value⟩ c =
      some ⟨settings, .bare keyword (value ++ [c])⟩ := by
  have hstep : Scan.step known ⟨settings, .bare keyword value⟩ c =
      Scan.stepBare known ⟨settings, .bare keyword value⟩ keyword value c := rfl
  rw [hstep, Scan.stepBare, hspace, if_neg (by decide), if_neg hslash]

/-- In a value without quotes, behind a backslash or not. -/
def inBare (escaped : Bool) (keyword value : List Char) : Phase :=
  if escaped then .bareEscaped keyword value else .bare keyword value

/-- A value without blanks is not ended. -/
theorem foldlM_bare {text : List Char} (hspace : ∀ c ∈ text, isSpaceC c = false) :
    ∀ escaped value, ∃ escaped' value', text.foldlM (Scan.step known)
      ⟨settings, inBare escaped keyword value⟩ = some ⟨settings, inBare escaped' keyword value'⟩ := by
  induction text with
  | nil => exact fun escaped value => ⟨escaped, value, rfl⟩
  | cons c text ih =>
      intro escaped value
      have hrest := ih fun d hd => hspace d (List.mem_cons_of_mem _ hd)
      rw [List.foldlM_cons]
      cases escaped with
      | true => exact hrest false (value ++ [c])
      | false =>
          by_cases hslash : c = '\\'
          · subst hslash
            exact hrest true value
          · have hstep : Scan.step known ⟨settings, inBare false keyword value⟩ c = _ :=
              step_bare (hspace c (List.mem_cons_self ..)) hslash
            rw [hstep]
            exact hrest false (value ++ [c])

/-- The end of a value is kept where it has no backslash. -/
theorem foldlM_plain {u : Char} {us : List Char} (hspace : ∀ c ∈ u :: us, isSpaceC c = false)
    (hslash : '\\' ∉ u :: us) (escaped : Bool) (value : List Char) :
    (u :: us).foldlM (Scan.step known) ⟨settings, inBare escaped keyword value⟩ =
      some ⟨settings, .bare keyword (value ++ u :: us)⟩ := by
  have hbare : ∀ us value : List Char, (∀ c ∈ us, isSpaceC c = false) → '\\' ∉ us →
      us.foldlM (Scan.step known) ⟨settings, .bare keyword value⟩ =
        some ⟨settings, .bare keyword (value ++ us)⟩ := by
    intro us
    induction us with
    | nil =>
        intro value _ _
        rw [List.append_nil]
        rfl
    | cons c us ih =>
        intro value hspace hslash
        obtain ⟨hc, hrest⟩ := not_or.mp (mt List.mem_cons.mpr hslash)
        rw [List.append_cons value c us, List.foldlM_cons,
          step_bare (hspace c (List.mem_cons_self ..)) (Ne.symm hc)]
        exact ih (value ++ [c]) (fun d hd => hspace d (List.mem_cons_of_mem _ hd)) hrest
  cases escaped with
  | true =>
      rw [List.append_cons value u us, List.foldlM_cons]
      exact hbare us (value ++ [u]) (fun d hd => hspace d (List.mem_cons_of_mem _ hd))
        fun hmem => hslash (List.mem_cons_of_mem _ hmem)
  | false => exact hbare (u :: us) value hspace hslash

/-- A value that begins without a quote is read as it is. -/
theorem foldlM_beforeValue {text : List Char} (hne : text ≠ [])
    (hspace : ∀ c ∈ text, isSpaceC c = false) (hquote : text.head? ≠ some '\x27') :
    text.foldlM (Scan.step known) ⟨settings, .beforeValue keyword⟩ =
      text.foldlM (Scan.step known) ⟨settings, .bare keyword []⟩ := by
  cases text with
  | nil => exact absurd rfl hne
  | cons c text =>
      have hc : c ≠ '\x27' := fun h => hquote (congrArg some h)
      have hstep : Scan.step known ⟨settings, .beforeValue keyword⟩ c =
          Scan.step known ⟨settings, .bare keyword []⟩ c := by
        have hstart : Scan.step known ⟨settings, .beforeValue keyword⟩ c =
            if isSpaceC c then some ⟨settings, .beforeValue keyword⟩
            else if c = '\x27' then some ⟨settings, .quoted keyword []⟩
            else Scan.stepBare known ⟨settings, .beforeValue keyword⟩ keyword [] c := rfl
        rw [hstart, hspace c (List.mem_cons_self ..), if_neg (by decide), if_neg hc]
        rfl
      rw [List.foldlM_cons, List.foldlM_cons, hstep]

/-- A `dbname` with a value of its own names the database, if libpq begins a setting there, a blank
ends the value and no later setting names another. -/
theorem kv_database {before text after : List Char} {u : Char} {us : List Char}
    {read : List Setting}
    (hbefore : ∃ s, before.foldlM (Scan.step known) ⟨[], .between⟩ = some s ∧ s.phase = .between)
    (hspace : ∀ c ∈ text ++ u :: us, isSpaceC c = false)
    (hquote : (text ++ u :: us).head? ≠ some '\x27') (hslash : '\\' ∉ u :: us)
    (hafter : ∀ c ∈ after.head?, isSpaceC c = true)
    (hlater : ∀ later, kvSettings known after = some later →
      ∀ setting ∈ later, setting.1 ≠ key "dbname")
    (h : kvSettings known (before ++ ("dbname=".toList ++ ((text ++ u :: us) ++ after))) =
      some read) :
    ∃ value, lastValue (key "dbname") read = some (utf8 (value ++ u :: us)) := by
  obtain ⟨⟨settings, phase⟩, hscan, rfl⟩ := hbefore
  have hkeyword : "dbname=".toList.foldlM (Scan.step known) ⟨settings, .between⟩ =
      some ⟨settings, .beforeValue "dbname".toList⟩ := rfl
  have htext : ∃ escaped value, text.foldlM (Scan.step known)
      ⟨settings, .bare "dbname".toList []⟩ = some ⟨settings, inBare escaped "dbname".toList value⟩ :=
    foldlM_bare (fun c hc => hspace c (List.mem_append_left _ hc)) false []
  obtain ⟨escaped, value, htext⟩ := htext
  have hvalue : (text ++ u :: us).foldlM (Scan.step known)
      ⟨settings, .beforeValue "dbname".toList⟩ =
        some ⟨settings, .bare "dbname".toList (value ++ u :: us)⟩ := by
    rw [foldlM_beforeValue (List.append_ne_nil_of_right_ne_nil _ (List.cons_ne_nil _ _)) hspace
      hquote, List.foldlM_append, htext]
    exact foldlM_plain (fun c hc => hspace c (List.mem_append_right _ hc)) hslash escaped value
  have hrun : (after.foldlM (Scan.step known)
      ⟨settings, .bare "dbname".toList (value ++ u :: us)⟩).bind (Scan.finish known) =
        some read := by
    rw [kvSettings, List.foldlM_append, hscan, Option.bind_eq_bind, Option.bind_some,
      List.foldlM_append, hkeyword, Option.bind_eq_bind, Option.bind_some, List.foldlM_append,
      hvalue] at h
    exact h
  refine ⟨value, ?_⟩
  have hstore : Scan.store known ⟨settings, .bare "dbname".toList (value ++ u :: us)⟩
      "dbname".toList (value ++ u :: us) = if known (key "dbname") then
        some ⟨settings ++ [(key "dbname", utf8 (value ++ u :: us))], .between⟩ else none := rfl
  cases after with
  | nil =>
      have hfinish : (Scan.store known ⟨settings, .bare "dbname".toList (value ++ u :: us)⟩
          "dbname".toList (value ++ u :: us)).map Scan.settings = some read := hrun
      rw [hstore] at hfinish
      split at hfinish
      · obtain rfl := Option.some.inj hfinish
        exact lastValue_append fun _ hmem => absurd hmem List.not_mem_nil
      · cases hfinish
  | cons c after =>
      have hc := hafter c rfl
      have hstep : Scan.step known ⟨settings, .bare "dbname".toList (value ++ u :: us)⟩ c =
          Scan.store known ⟨settings, .bare "dbname".toList (value ++ u :: us)⟩
            "dbname".toList (value ++ u :: us) := if_pos hc
      rw [List.foldlM_cons, hstep, hstore] at hrun
      split at hrun
      · rw [Option.bind_eq_bind, Option.bind_some, finish_between] at hrun
        obtain ⟨later, hread, rfl⟩ := Option.map_eq_some_iff.mp hrun
        rw [List.append_assoc, List.singleton_append]
        exact lastValue_append (hlater later ((kvSettings_blank hc after).trans hread))
      · cases hrun

end Words

end AiStudio.Data.Conninfo
