import AiStudio.Runtime.Filesystem
import AiStudio.Runtime.Roles

/-!
# Artifacts and their markers

What the filesystem tool writes and reads back, and the marker check of `runtime/roles/checkers.py`
on the artifact the executor wrote. Reading in text mode turns every end of a line into one
character, so that a carriage return is not read back.

- `write_of_writable`, `writable_of_write`: when a write succeeds, and what it leaves.
- `infix_universalNewlines`: a marker without a carriage return is still there when it is read.
-/

set_option autoImplicit false

namespace AiStudio.Runtime.Filesystem

open AiStudio.Data AiStudio.Data.FileTree AiStudio.Runtime

/-! ## The marker check -/

/-- `CheckResult`. -/
structure CheckResult where
  passed : Bool
  facts : Doc
  reason : String

/-- `_marker_from_require`; `str` is `str` of a value that is no text. -/
def markerFromRequire (str : Json Empty → String) : Json Empty → String
  | .str marker => marker
  | .obj fields =>
      let marker := Doc.getD fields "marker" .null
      let value := Doc.getD fields "value" .null
      if marker.truthy then textOf marker else if value.truthy then textOf value else ""
  | _ => ""
where
  textOf : Json Empty → String
    | .str text => text
    | value => str value

/-- `marker_check`; `readText` is the gated read of a path. -/
def markerCheck (str : Json Empty → String) (repr : String → String) (artifactPath : Option String)
    (readText : String → InvokeStatus × Option ToolResult) (require : Json Empty) : CheckResult :=
  let marker := markerFromRequire str require
  match artifactPath.filter (· ≠ "") with
  | none =>
      { passed := false, facts := [("artifact", .null)], reason := "no artifact produced by executor" }
  | some path =>
      if marker = "" then
        { passed := false, facts := [("marker", .null)], reason := "no success marker defined" }
      else
        let (status, result) := readText path
        match result.filter fun r => status = .executed && r.ok with
        | none =>
            { passed := false, facts := [("read_status", .str status.value)]
              reason := "could not read artifact (" ++ status.value ++ ")" }
        | some result =>
            let content := result.output.asStr?.getD ""
            let facts := [("marker", .str marker), ("artifact_bytes", .int content.length),
              ("read_status", .str "executed")]
            if marker.toList <:+: content.toList then
              { passed := true, facts, reason := "artifact contains marker " ++ repr marker }
            else
              { passed := false, facts, reason := "marker " ++ repr marker ++ " not found in artifact" }

/-! ## The law -/

section Law

variable (codec : Codec) (repr : String → String) (root : Place) (tree : FileTree)

/-- The call that writes a text to a path, and the one that reads it back. -/
def writeCall (path content : String) : Call where
  op := "write"
  path := some path
  content := content

def readCall (path : String) : Call where
  op := "read"
  path := some path

/-- The tree after a text was written. -/
def written (path content : String) : FileTree :=
  (execute codec repr root tree (writeCall path content)).tree

/-- A run ends with this. -/
def Answers (run : Outcome) (result : ToolResult) : Prop := run.result = .ok result

/-- A run that succeeded. -/
def Succeeds (run : Outcome) : Prop := ∃ result, Answers run result ∧ result.ok = true

/-- What was written is read back, an artifact with its marker passes the check, and no operation
on the path raises. -/
structure RoundTrip (path content : String) : Prop where
  readBack : Succeeds (execute codec repr root tree (writeCall path content)) →
    ∃ result, Answers (execute codec repr root (written codec repr root tree path content)
      (readCall path)) result ∧ result.ok = true ∧ result.output = .str content
  marker : Succeeds (execute codec repr root tree (writeCall path content)) →
    ∀ str marker, marker ≠ "" → marker.toList <:+: content.toList →
      ∀ result, Answers (execute codec repr root (written codec repr root tree path content)
        (readCall path)) result →
          (markerCheck str repr (some path) (fun _ => (.executed, some result))
            (.str marker)).passed = true
  total : ∀ op, ∃ result, Answers (execute codec repr root tree
    { op := op, path := some path, content := content }) result

/-- No file stands above the place, no directory at it, the path is not too long, and the text can
be encoded. -/
structure Writable (target : Place) (content : String) : Prop where
  short : tooLong target = false
  clear : tree.blocked target.dropLast = false
  file : tree.find? target ≠ some .dir
  encodes : codec.encode content ≠ none

/-- The bytes of a file can be decoded. -/
def Readable (target : Place) : Prop :=
  ∀ bytes, tree.find? target = some (.file bytes) → codec.decode bytes ≠ none

/-- The path is refused; or it leads to a place that can be written and read, and the text has no
carriage return. -/
def Sound (path content : String) : Prop :=
  match resolve repr root tree path with
  | .error (.escape _) => True
  | .error (.invalid _) => True
  | .error .loop => False
  | .ok target =>
      Writable codec tree target content ∧ Readable codec tree target ∧ '\r' ∉ content.toList

end Law

/-! ## Ends of lines -/

section Newlines

theorem universalNewlines_cons {c : Char} (hc : c ≠ '\r') (rest : List Char) :
    universalNewlines (c :: rest) = c :: universalNewlines rest := by
  rw [universalNewlines]
  · exact fun _ heq => absurd heq hc
  · exact hc

theorem not_mem_universalNewlines (text : List Char) : '\r' ∉ universalNewlines text := by
  fun_induction universalNewlines text with
  | case1 => exact List.not_mem_nil
  | case2 rest ih => simpa using ih
  | case3 rest _ ih => simpa using ih
  | case4 c rest _ hc ih =>
      intro h
      rcases List.mem_cons.1 h with h | h
      · exact hc h.symm
      · exact ih h

/-- A text without a carriage return is read as it is, whatever follows it. -/
theorem universalNewlines_append {text : List Char} (h : '\r' ∉ text) (rest : List Char) :
    universalNewlines (text ++ rest) = text ++ universalNewlines rest := by
  induction text with
  | nil => rfl
  | cons c text ih =>
      have hc : c ≠ '\r' := fun heq => h (heq ▸ List.mem_cons_self)
      rw [List.cons_append, List.cons_append, universalNewlines_cons hc,
        ih fun hmem => h (List.mem_cons_of_mem c hmem)]

theorem universalNewlines_eq_self {text : List Char} :
    universalNewlines text = text ↔ '\r' ∉ text := by
  constructor
  · intro h
    rw [← h]
    exact not_mem_universalNewlines text
  · intro h
    have := universalNewlines_append h []
    rwa [List.append_nil, universalNewlines, List.append_nil] at this

/-- What is read of the end of a text ends what is read of it. -/
theorem suffix_universalNewlines (front rest : List Char) :
    universalNewlines rest <:+ universalNewlines (front ++ rest) := by
  induction front with
  | nil => exact List.suffix_refl _
  | cons c front ih =>
      refine ih.trans ?_
      rw [List.cons_append]
      generalize front ++ rest = text
      by_cases hc : c = '\r'
      · subst hc
        cases text with
        | nil => exact List.suffix_cons _ _
        | cons d text =>
            by_cases hd : d = '\n'
            · subst hd
              rw [universalNewlines, universalNewlines_cons (by decide)]
            · rw [universalNewlines.eq_3 _ fun _ heq => hd (List.cons.inj heq).1]
              exact List.suffix_cons _ _
      · rw [universalNewlines_cons hc]
        exact List.suffix_cons _ _

/-- **A marker is found in what is read of the artifact it is in**, unless it has a carriage
return. -/
theorem infix_universalNewlines {marker content : List Char} (h : marker <:+: content) :
    marker <:+: universalNewlines content ↔ '\r' ∉ marker := by
  constructor
  · intro hread hmem
    exact not_mem_universalNewlines content (hread.subset hmem)
  · intro hmarker
    obtain ⟨front, back, rfl⟩ := h
    rw [List.append_assoc]
    refine List.IsInfix.trans ?_ (suffix_universalNewlines front (marker ++ back)).isInfix
    rw [universalNewlines_append hmarker]
    exact (List.prefix_append marker _).isInfix

end Newlines

/-! ## Writing and reading -/

section Places

variable {codec : Codec} {tree : FileTree} {target : Place} {content : String}
  (hfree : tree.LinkFree target)
include hfree

omit hfree in
theorem ne_nil_of_writable (hw : Writable codec tree target content) : target ≠ [] := by
  rintro rfl
  exact hw.file tree.root

omit hfree in
/-- The directories above a place are not the place. -/
theorem not_prefix_dropLast (hne : target ≠ []) : ¬target <+: target.dropLast := by
  intro h
  have hlength := h.length_le
  rw [List.length_dropLast] at hlength
  have := List.length_pos_of_ne_nil hne
  omega

/-- **A writable place is written**: the run succeeds, and the file has the bytes of the text. -/
theorem write_of_writable (hw : Writable codec tree target content) :
    ∃ bytes result, codec.encode content = some bytes ∧ result.ok = true ∧
      (write codec tree target content).result = .ok result ∧
      (write codec tree target content).tree.find? target = some (.file bytes) ∧
      ∀ place, tree.link? place = (write codec tree target content).tree.link? place := by
  obtain ⟨bytes, hencode⟩ := Option.ne_none_iff_exists'.1 hw.encodes
  have hne := ne_nil_of_writable hw
  have hup := List.dropLast_prefix target
  obtain ⟨between, made, hmake, hmade⟩ := makeDirs_ok (hfree.of_prefix hup)
    (tooLong_of_above hup hw.short) hw.clear
  have hfree' : between.LinkFree target := hfree.congr hmade.link?
  have hsame : between.find? target = tree.find? target :=
    hmade.kept target fun h => not_prefix_dropLast hne h.1
  have hdir : between.find? target.dropLast = some .dir := by
    cases hentry : tree.find? target.dropLast with
    | none => exact hmade.new _ (List.prefix_refl _) hentry
    | some entry =>
        rw [hmade.kept _ fun h => absurd (hentry.symm.trans h.2) (Option.some_ne_none _), hentry]
        rcases (hfree.of_prefix hup).entry hentry with ⟨old, rfl⟩ | rfl
        · have hblocked := blocked_iff.2 ⟨_, old, List.prefix_refl _, hentry⟩
          rw [hw.clear] at hblocked
          cases hblocked
        · rfl
  have hopen : ∃ after, between.openWrite target = .ok (target, after) := by
    rw [openWrite_linkFree hfree' hw.short]
    by_cases hnone : between.find? target = none
    · rw [dif_pos hnone, dif_pos hdir]
      exact ⟨_, rfl⟩
    · rw [dif_neg hnone, if_neg (hsame ▸ hw.file)]
      exact ⟨_, rfl⟩
  obtain ⟨after, hopen⟩ := hopen
  obtain ⟨-, hfile, hkept⟩ := openWrite_eq_ok hfree' hopen
  have hwrite : write codec tree target content =
      ⟨.ok (succeeded (.obj [("bytes", .int content.length)]) target),
        after.setBytes target bytes, made.map (.create, ·) ++ [(.write, target)]⟩ := by
    unfold write
    rw [hmake]
    dsimp only
    rw [hopen]
    dsimp only
    rw [hencode]
  rw [hwrite]
  refine ⟨bytes, _, hencode, rfl, rfl, ?_, fun place => ?_⟩
  · rw [find?_setBytes hfile, if_pos rfl]
  · rw [hmade.link?]
    refine link?_congr (fun other => ?_) place
    by_cases heq : other = target
    · rw [heq, find?_setBytes hfile, if_pos rfl]
      cases hold : between.find? target with
      | none => exact .inr (.inl ⟨rfl, fun _ h => by cases h⟩)
      | some entry =>
          rcases hfree'.entry hold with ⟨old, rfl⟩ | rfl
          · exact .inr (.inr ⟨old, bytes, rfl, rfl⟩)
          · exact absurd (hsame.symm.trans hold) hw.file
    · rw [find?_setBytes hfile, if_neg heq]
      exact .inl (hkept other heq)

/-- **Only a writable place is written.** -/
theorem writable_of_write {result : ToolResult}
    (h : (write codec tree target content).result = .ok result) :
    Writable codec tree target content := by
  unfold write at h
  rcases makeDirs_cases (hfree.of_prefix (List.dropLast_prefix target)) with
    ⟨-, hclear, between, made, hmake, hmade⟩ | ⟨-, errno, hmake⟩
  · rw [hmake] at h
    dsimp only at h
    have hfree' : between.LinkFree target := hfree.congr hmade.link?
    cases hopen : between.openWrite target with
    | error errno =>
        rw [hopen] at h
        cases h
    | ok opened =>
        rw [hopen] at h
        dsimp only at h
        obtain ⟨hshort, hfile⟩ := openWrite_guard hfree' hopen
        cases hencode : codec.encode content with
        | none =>
            rw [hencode] at h
            cases h
        | some bytes =>
            refine ⟨hshort, hclear, fun hdir => hfile ?_, by rw [hencode]; exact Option.some_ne_none _⟩
            rw [hmade.kept target fun hmissing =>
              absurd (hdir.symm.trans hmissing.2) (Option.some_ne_none _)]
            exact hdir
  · rw [hmake] at h
    cases h

section Short

variable (hshort : tooLong target = false)
include hshort

theorem pathTest_linkFree (test : Entry → Bool) :
    pathTest tree target test = .ok ((tree.find? target).any test) := by
  rw [pathTest, stat_linkFree hfree hshort]
  cases tree.find? target with
  | none =>
      dsimp only
      unfold missing
      split_ifs <;> rfl
  | some entry => rfl

/-- **What a file is read as.** -/
theorem read_file {bytes : List UInt8} (hfile : tree.find? target = some (.file bytes)) :
    (read codec tree target).result = match codec.decode bytes with
      | none => .error .unicodeDecodeError
      | some text =>
          .ok (succeeded (.str (String.ofList (universalNewlines text.toList))) target) := by
  unfold read
  rw [pathTest_linkFree hfree hshort, hfile, openRead_linkFree hfree hshort hfile]
  dsimp only [Option.any_some, Entry.isFile]
  cases codec.decode bytes <;> rfl

theorem read_total (hread : Readable codec tree target) :
    ∃ result, (read codec tree target).result = .ok result := by
  by_cases hfile : ∃ bytes, tree.find? target = some (.file bytes)
  · obtain ⟨bytes, hfile⟩ := hfile
    obtain ⟨text, htext⟩ := Option.ne_none_iff_exists'.1 (hread bytes hfile)
    rw [read_file hfree hshort hfile, htext]
    exact ⟨_, rfl⟩
  · have hnot : (tree.find? target).any Entry.isFile = false := by
      cases hentry : tree.find? target with
      | none => rfl
      | some entry =>
          rcases hfree.entry hentry with ⟨bytes, rfl⟩ | rfl
          · exact absurd ⟨bytes, hentry⟩ hfile
          · rfl
    unfold read
    rw [pathTest_linkFree hfree hshort, hnot]
    exact ⟨_, rfl⟩

theorem readable_of_read {result : ToolResult}
    (h : (read codec tree target).result = .ok result) : Readable codec tree target := by
  intro bytes hfile hnone
  rw [read_file hfree hshort hfile, hnone] at h
  cases h

theorem list_total : ∃ result, (list tree target).result = .ok result := by
  unfold list
  rw [pathTest_linkFree hfree hshort]
  by_cases hdir : tree.find? target = some .dir
  · rw [hdir, openDir_linkFree hfree hshort hdir]
    exact ⟨_, rfl⟩
  · have hnot : (tree.find? target).any Entry.isDir = false := by
      cases hentry : tree.find? target with
      | none => rfl
      | some entry =>
          rcases hfree.entry hentry with ⟨bytes, rfl⟩ | rfl
          · rfl
          · exact absurd hentry hdir
    rw [hnot]
    exact ⟨_, rfl⟩

theorem delete_total : ∃ result, (delete tree target).result = .ok result := by
  unfold delete
  rw [pathTest_linkFree hfree hshort, pathTest_linkFree hfree hshort]
  cases hentry : tree.find? target with
  | none => exact ⟨_, rfl⟩
  | some entry =>
      rcases hfree.entry hentry with ⟨bytes, rfl⟩ | rfl
      · have hdir : ¬tree.find? target = some .dir := by
          rw [hentry]
          rintro ⟨⟩
        have hnone : ¬tree.find? target = none := by
          rw [hentry]
          exact Option.some_ne_none _
        rw [unlink_linkFree hfree hshort, dif_neg hdir, if_neg hnone]
        exact ⟨_, rfl⟩
      · exact ⟨_, rfl⟩

end Short

end Places

/-! ## Round trips -/

section RoundTrips

variable {codec : Codec} {repr : String → String} {root : Place} {tree : FileTree}
  {target : Place} {path content : String}

/-- A call on a path that resolves does its operation there. -/
theorem execute_resolved (hresolve : resolve repr root tree path = .ok target) (op : String) :
    execute codec repr root tree { op := op, path := some path, content := content } =
      if op ∉ opCaps then .answer tree (failed ("unknown op: " ++ repr op))
      else if op = "read" then read codec tree target
      else if op = "list" then list tree target
      else if op = "write" then write codec tree target content
      else delete tree target := by
  unfold execute
  by_cases hop : op ∉ opCaps
  · rw [if_pos hop, if_pos hop]
  · rw [if_neg hop, if_neg hop]
    dsimp only
    rw [hresolve]

theorem execute_write (hresolve : resolve repr root tree path = .ok target) :
    execute codec repr root tree (writeCall path content) = write codec tree target content :=
  (execute_resolved hresolve "write").trans rfl

theorem execute_read (hresolve : resolve repr root tree path = .ok target) :
    execute codec repr root tree (readCall path) = read codec tree target :=
  (execute_resolved hresolve "read").trans rfl

/-- A refused path answers every call with a failure. -/
theorem execute_refused (codec : Codec) (content : String)
    (hresolve : (∃ message, resolve repr root tree path = .error (.escape message)) ∨
      ∃ message, resolve repr root tree path = .error (.invalid message)) (op : String) :
    ∃ result, Answers (execute codec repr root tree
      { op := op, path := some path, content := content }) result ∧ result.ok = false := by
  unfold execute
  by_cases hop : op ∉ opCaps
  · rw [if_pos hop]
    exact ⟨_, rfl, rfl⟩
  · rw [if_neg hop]
    dsimp only
    rcases hresolve with ⟨message, h⟩ | ⟨message, h⟩
    · rw [h]
      exact ⟨_, rfl, rfl⟩
    · rw [h]
      exact ⟨_, rfl, rfl⟩

/-- Where a path resolves to depends on the links of the tree only. -/
theorem resolve_congr {after : FileTree} (hlinks : ∀ place, tree.link? place = after.link? place) :
    resolve repr root tree path = resolve repr root after path := by
  unfold resolve follow
  rw [realPath_congr hlinks]

theorem roundTrip_of_refused
    (hresolve : (∃ message, resolve repr root tree path = .error (.escape message)) ∨
      ∃ message, resolve repr root tree path = .error (.invalid message)) :
    RoundTrip codec repr root tree path content := by
  have hfails : ¬Succeeds (execute codec repr root tree (writeCall path content)) := by
    rintro ⟨result, hresult, hok⟩
    obtain ⟨refused, hrefused, hnot⟩ := execute_refused codec content hresolve "write"
    obtain rfl := Except.ok.inj (hrefused.symm.trans hresult)
    exact absurd (hnot.symm.trans hok) Bool.false_ne_true
  exact ⟨fun h => absurd h hfails, fun h => absurd h hfails, fun op =>
    (execute_refused codec content hresolve op).imp fun _ h => h.1⟩

/-- What is read after a write to a writable place. -/
theorem read_written (hresolve : resolve repr root tree path = .ok target)
    (hw : Writable codec tree target content) :
    Succeeds (execute codec repr root tree (writeCall path content)) ∧
      Answers (execute codec repr root (written codec repr root tree path content) (readCall path))
        (succeeded (.str (String.ofList (universalNewlines content.toList))) target) := by
  obtain ⟨-, hfree, -⟩ := resolve_spec hresolve
  obtain ⟨bytes, result, hencode, hok, hresult, hfile, hlinks⟩ := write_of_writable hfree hw
  have hwritten : written codec repr root tree path content =
      (write codec tree target content).tree := by
    rw [written, execute_write hresolve]
  refine ⟨⟨result, ?_, hok⟩, ?_⟩
  · rw [execute_write hresolve]
    exact hresult
  · rw [hwritten, execute_read ((resolve_congr hlinks).symm.trans hresolve), Answers,
      read_file (hfree.congr hlinks) hw.short hfile, codec.decode_encode _ _ hencode]

/-- The marker check on what was read. -/
theorem markerCheck_passed_iff {str : Json Empty → String} {marker text : String} {place : Place}
    (hpath : path ≠ "") (hmarker : marker ≠ "") :
    (markerCheck str repr (some path) (fun _ => (.executed, some (succeeded (.str text) place)))
      (.str marker)).passed = true ↔ marker.toList <:+: text.toList := by
  have hfilter : (some path).filter (· ≠ "") = some path := by
    simp [hpath]
  have hread : (some (succeeded (.str text) place)).filter (fun r => r.ok) =
      some (succeeded (.str text) place) := rfl
  have houtput : (succeeded (.str text) place).output.asStr?.getD "" = text := rfl
  simp only [markerCheck, markerFromRequire, hfilter, hmarker, if_false, decide_true, Bool.true_and,
    hread, houtput]
  by_cases hwithin : marker.toList <:+: text.toList
  · simp [hwithin]
  · simp [hwithin]

theorem ne_empty_of_resolve (hresolve : resolve repr root tree path = .ok target) : path ≠ "" := by
  rintro rfl
  cases hresolve

theorem roundTrip_of_sound (hresolve : resolve repr root tree path = .ok target)
    (hw : Writable codec tree target content) (hread : Readable codec tree target)
    (hcontent : '\r' ∉ content.toList) : RoundTrip codec repr root tree path content := by
  obtain ⟨-, hfree, -⟩ := resolve_spec hresolve
  obtain ⟨-, hanswer⟩ := read_written hresolve hw
  constructor
  · intro _
    refine ⟨_, hanswer, rfl, ?_⟩
    rw [universalNewlines_eq_self.2 hcontent, String.ofList_toList]
    rfl
  · intro _ str marker hmarker hwithin result hresult
    obtain rfl := Except.ok.inj (hanswer.symm.trans hresult)
    refine (markerCheck_passed_iff (ne_empty_of_resolve hresolve) hmarker).2 ?_
    rw [String.toList_ofList, infix_universalNewlines hwithin]
    exact fun hmem => hcontent (hwithin.subset hmem)
  · intro op
    unfold Answers
    rw [execute_resolved hresolve]
    obtain ⟨_, result, _, _, hresult, _⟩ := write_of_writable hfree hw
    split_ifs
    · exact read_total hfree hw.short hread
    · exact list_total hfree hw.short
    · exact ⟨result, hresult⟩
    · exact delete_total hfree hw.short
    · exact ⟨_, rfl⟩

theorem sound_of_roundTrip (hresolve : resolve repr root tree path = .ok target)
    (h : RoundTrip codec repr root tree path content) :
    Writable codec tree target content ∧ Readable codec tree target ∧ '\r' ∉ content.toList := by
  obtain ⟨-, hfree, -⟩ := resolve_spec hresolve
  obtain ⟨result, hwrite⟩ := h.total "write"
  rw [Answers, execute_resolved hresolve] at hwrite
  have hw : Writable codec tree target content := writable_of_write hfree hwrite
  obtain ⟨result, hreads⟩ := h.total "read"
  rw [Answers, execute_resolved hresolve] at hreads
  refine ⟨hw, readable_of_read hfree hw.short hreads, ?_⟩
  obtain ⟨hsucceeds, hanswer⟩ := read_written hresolve hw
  obtain ⟨back, hback, -, houtput⟩ := h.readBack hsucceeds
  obtain rfl := Except.ok.inj (hanswer.symm.trans hback)
  have heq := Json.str.inj houtput
  rw [← universalNewlines_eq_self, ← String.toList_ofList (l := universalNewlines _), heq]

/-- **A text written is read back, its marker is found and no operation raises** exactly when the
path is refused, or leads to a place that can be written and read and the text has no carriage
return. -/
theorem roundTrip_iff (codec : Codec) (repr : String → String) (root : Place) (tree : FileTree)
    (path content : String) :
    RoundTrip codec repr root tree path content ↔ Sound codec repr root tree path content := by
  unfold Sound
  cases hresolve : resolve repr root tree path with
  | error error =>
      cases error with
      | escape message =>
          exact iff_of_true (roundTrip_of_refused (.inl ⟨message, hresolve⟩)) trivial
      | invalid message =>
          exact iff_of_true (roundTrip_of_refused (.inr ⟨message, hresolve⟩)) trivial
      | loop =>
          refine iff_of_false (fun h => ?_) id
          obtain ⟨result, hresult⟩ := h.total "read"
          unfold Answers execute at hresult
          rw [if_neg (show ¬"read" ∉ opCaps by decide)] at hresult
          dsimp only at hresult
          rw [hresolve] at hresult
          cases hresult
  | ok target =>
      exact ⟨sound_of_roundTrip hresolve, fun h => roundTrip_of_sound hresolve h.1 h.2.1 h.2.2⟩

end RoundTrips

/-! ## The executor's artifact -/

/-- The executor writes its artifact with such a call. -/
theorem executor_writeCall (e : Executor) (text : String) (id : Uuid) (row : Task) :
    Call.ofKwargs (e.write text id row).kwargs =
      writeCall (Executor.artifactPath id) (e.content text id row) := rfl

/-- The artifact begins with its marker. -/
theorem marker_prefix_content (e : Executor) (text : String) (id : Uuid) (row : Task) :
    (e.str (Executor.marker id row)).toList <+: (e.content text id row).toList := by
  unfold Executor.content
  simp only [String.toList_append, List.append_assoc]
  exact List.prefix_append _ _

/-! ## A carriage return -/

/-- The file that is written is read with another end of its first line. -/
theorem carriage_return_lost : ¬RoundTrip ascii id ["srv"] bare "note.txt" "ok\r\ndone" := by
  intro h
  have hresolve : resolve id ["srv"] bare "note.txt" = .ok ["srv", "note.txt"] := by
    have hfollow : bare.follow (["srv"] ++ pathNames "note.txt") = some ["srv", "note.txt"] :=
      follow_linkFree (linkFree_bare (by decide) (by decide))
    unfold resolve
    rw [hfollow]
    rfl
  exact absurd (sound_of_roundTrip hresolve h).2.2 (by decide)

end AiStudio.Runtime.Filesystem
