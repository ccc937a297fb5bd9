import AiStudio.Data.FileTree
import AiStudio.Runtime.Enforce

/-!
# The filesystem tool

Embeds `FilesystemTool` of `runtime/tools/filesystem.py` on a file tree with symbolic links. A run
gives the result or what was raised, the tree after it, and the places it read, listed, made, wrote
or deleted; the system calls follow links themselves, whatever the tool checked before. The
encoding of texts is the locale's, and how a value is quoted in a message is an argument.

- `resolve_spec`: what is resolved lies in the root, and no link is left on the way to it.
- `read_eq`, `list_eq`, `write_eq`, `delete_eq`: what an operation does at such a place.
-/

set_option autoImplicit false

namespace AiStudio.Runtime.Filesystem

open AiStudio.Data AiStudio.Data.FileTree AiStudio.Runtime

/-! ## Runs -/

/-- The encoding of texts; what it encodes, it decodes. -/
structure Codec where
  encode : String → Option (List UInt8)
  decode : List UInt8 → Option String
  decode_encode : ∀ text bytes, encode text = some bytes → decode bytes = some text

/-- What a run may raise. -/
inductive Raised where
  | osError (errno : Errno)
  | unicodeDecodeError
  | unicodeEncodeError
  /-- A symbolic link leads to itself. -/
  | runtimeError
  deriving DecidableEq

/-- What is done at a place. -/
inductive Access where
  | read
  | list
  | create
  | write
  | delete
  deriving DecidableEq

/-- A run of the tool. -/
structure Outcome where
  result : Except Raised ToolResult
  tree : FileTree
  touched : List (Access × Place) := []

/-- A run that answers without a system call that reads or changes anything. -/
def Outcome.answer (tree : FileTree) (result : ToolResult) : Outcome := ⟨.ok result, tree, []⟩

/-- A run that raises before it touches anything. -/
def Outcome.raise (tree : FileTree) (raised : Raised) : Outcome := ⟨.error raised, tree, []⟩

/-- A handled failure. -/
def failed (error : String) : ToolResult := { ok := false, error := some error }

/-- `str(path)`. -/
def pathText (place : Place) : String := "/" ++ "/".intercalate place

/-- A success, with the path in its metadata. -/
def succeeded (output : Json PyObject) (target : Place) : ToolResult :=
  { ok := true, output := output, metadata := [("path", .str (pathText target))] }

/-- `Path.is_file()`, `is_dir()` and `exists()`: an error of the call is raised unless it says that
there is nothing there. -/
def pathTest (tree : FileTree) (path : Place) (test : Entry → Bool) : Except Errno Bool :=
  match tree.stat path with
  | .ok entry => .ok (test entry)
  | .error .enametoolong => .error .enametoolong
  | .error _ => .ok false

/-- What reading in text mode makes of the ends of lines. -/
def universalNewlines : List Char → List Char
  | [] => []
  | '\r' :: '\n' :: rest => '\n' :: universalNewlines rest
  | '\r' :: rest => '\n' :: universalNewlines rest
  | c :: rest => c :: universalNewlines rest

/-! ## Confinement -/

/-- Why a path is refused. -/
inductive ResolveError where
  /-- `PathEscapeError`. -/
  | escape (message : String)
  /-- The path is no path of the system. -/
  | invalid (message : String)
  /-- A symbolic link leads to itself. -/
  | loop
  deriving DecidableEq

section Resolve

variable (repr : String → String) (root : Place) (tree : FileTree)

/-- Where `root / path` leads, for a path that is not absolute. -/
def location (path : String) : Option Place :=
  tree.follow (if isAbsolute path then pathNames path else root ++ pathNames path)

/-- `_resolve`. -/
def resolve (path : String) : Except ResolveError Place :=
  if isBlank path then .error (.escape "empty path")
  else if isAbsolute path then
    .error (.escape ("absolute paths are not allowed: " ++ repr path))
  else if '\x00' ∈ path.toList then .error (.invalid "embedded null byte")
  else
    match tree.follow (root ++ pathNames path) with
    | none => .error .loop
    | some target =>
        if root <+: target then .ok target
        else .error (.escape ("path escapes confined root: " ++ repr path))

end Resolve

/-! ## Operations -/

/-- The arguments of a call. -/
structure Call where
  op : String := "read"
  path : Option String := none
  content : String := ""

/-- A text among the arguments, or its default. -/
def textArg (kwargs : Kwargs PyObject) (key default : String) : String :=
  ((kwargs.lookup key).bind Json.asStr?).getD default

/-- The arguments as they are passed on, where they are texts. -/
def Call.ofKwargs (kwargs : Kwargs PyObject) : Call where
  op := textArg kwargs "op" "read"
  path := (kwargs.lookup "path").bind Json.asStr?
  content := textArg kwargs "content" ""

section Operations

variable (codec : Codec) (tree : FileTree) (target : Place)

/-- `read`. -/
def read : Outcome :=
  match pathTest tree target Entry.isFile with
  | .error errno => .raise tree (.osError errno)
  | .ok false => .answer tree (failed "file not found")
  | .ok true =>
      match tree.openRead target with
      | .error errno => .raise tree (.osError errno)
      | .ok (place, bytes) =>
          match codec.decode bytes with
          | none => ⟨.error .unicodeDecodeError, tree, [(.read, place)]⟩
          | some text =>
              ⟨.ok (succeeded (.str (String.ofList (universalNewlines text.toList))) target), tree,
                [(.read, place)]⟩

/-- `list`. -/
def list : Outcome :=
  match pathTest tree target Entry.isDir with
  | .error errno => .raise tree (.osError errno)
  | .ok false => .answer tree (failed "not a directory")
  | .ok true =>
      match tree.openDir target with
      | .error errno => .raise tree (.osError errno)
      | .ok (place, names) =>
          ⟨.ok (succeeded (.arr ((names.mergeSort (· ≤ ·)).map .str)) target), tree,
            [(.list, place)]⟩

/-- `write`: the file is emptied before the text is encoded. -/
def write (content : String) : Outcome :=
  match tree.makeDirs target.dropLast with
  | (.error errno, tree, made) => ⟨.error (.osError errno), tree, made.map (.create, ·)⟩
  | (.ok (), tree, made) =>
      match tree.openWrite target with
      | .error errno => ⟨.error (.osError errno), tree, made.map (.create, ·)⟩
      | .ok (place, tree) =>
          match codec.encode content with
          | none => ⟨.error .unicodeEncodeError, tree, made.map (.create, ·) ++ [(.write, place)]⟩
          | some bytes =>
              ⟨.ok (succeeded (.obj [("bytes", .int content.length)]) target),
                tree.setBytes place bytes, made.map (.create, ·) ++ [(.write, place)]⟩

/-- `delete`. -/
def delete : Outcome :=
  match pathTest tree target fun _ => true with
  | .error errno => .raise tree (.osError errno)
  | .ok false => .answer tree (failed "file not found")
  | .ok true =>
      match pathTest tree target Entry.isDir with
      | .error errno => .raise tree (.osError errno)
      | .ok true => .answer tree (failed "refusing to delete a directory")
      | .ok false =>
          match tree.unlink target with
          | .error errno => .raise tree (.osError errno)
          | .ok (place, tree) =>
              ⟨.ok { ok := true, output := .obj [("deleted", .str (pathText target))] }, tree,
                [(.delete, place)]⟩

end Operations

/-- `_OP_CAPS`. -/
def opCaps : List String := ["read", "list", "write", "delete"]

/-- `execute`. -/
def execute (codec : Codec) (repr : String → String) (root : Place) (tree : FileTree) (call : Call) :
    Outcome :=
  if call.op ∉ opCaps then .answer tree (failed ("unknown op: " ++ repr call.op))
  else
    match call.path with
    | none => .answer tree (failed "'path' is required")
    | some path =>
        match resolve repr root tree path with
        | .error (.escape message) => .answer tree (failed ("path confinement: " ++ message))
        | .error (.invalid message) => .answer tree (failed ("invalid path: " ++ message))
        | .error .loop => .raise tree .runtimeError
        | .ok target =>
            if call.op = "read" then read codec tree target
            else if call.op = "list" then list tree target
            else if call.op = "write" then write codec tree target call.content
            else delete tree target

/-! ## Confinement of a run -/

/-- A missing place above the root became a directory. -/
structure MadeAbove (root : Place) (before after : FileTree) (place : Place) : Prop where
  above : place <+: root
  missing : before.find? place = none
  made : after.find? place = some .dir

/-- Whatever is touched or changed is in the root, but for the missing directories above it. -/
structure Confined (root : Place) (tree : FileTree) (run : Outcome) : Prop where
  touched : ∀ access place, (access, place) ∈ run.touched →
    root <+: place ∨ access = .create ∧ MadeAbove root tree run.tree place
  kept : ∀ place, ¬root <+: place →
    run.tree.find? place = tree.find? place ∨ MadeAbove root tree run.tree place

/-- The call is refused, and nothing was touched. -/
structure Refused (tree : FileTree) (run : Outcome) : Prop where
  result : ∃ result, run.result = .ok result ∧ result.ok = false
  tree : run.tree = tree
  touched : run.touched = []

section Runs

variable {codec : Codec} {repr : String → String} {root : Place} {tree : FileTree}
  {target : Place} {path content : String}

theorem refused_failed (tree : FileTree) (error : String) :
    Refused tree (.answer tree (failed error)) where
  result := ⟨failed error, rfl, rfl⟩
  tree := rfl
  touched := rfl

theorem confined_answer (root : Place) (tree : FileTree) (result : ToolResult) :
    Confined root tree (.answer tree result) where
  touched := fun _ _ h => absurd h List.not_mem_nil
  kept := fun _ _ => .inl rfl

theorem confined_raise (root : Place) (tree : FileTree) (raised : Raised) :
    Confined root tree (.raise tree raised) where
  touched := fun _ _ h => absurd h List.not_mem_nil
  kept := fun _ _ => .inl rfl

/-- A run that touches and changes the target only. -/
theorem confined_target (hin : root <+: target) {result : Except Raised ToolResult}
    {after : FileTree} {access : Access}
    (hkept : ∀ other, other ≠ target → after.find? other = tree.find? other) :
    Confined root tree ⟨result, after, [(access, target)]⟩ where
  touched := by
    intro access' place h
    obtain ⟨-, rfl⟩ := Prod.mk.inj (List.mem_singleton.1 h)
    exact .inl hin
  kept := by
    intro place hout
    refine .inl (hkept place ?_)
    rintro rfl
    exact hout hin

/-- **What is resolved** lies in the root, and no link is left on the way to it. -/
theorem resolve_spec (h : resolve repr root tree path = .ok target) :
    root <+: target ∧ tree.LinkFree target ∧ location root tree path = some target := by
  unfold resolve at h
  by_cases hblank : isBlank path = true
  · rw [if_pos hblank] at h
    cases h
  by_cases habsolute : isAbsolute path = true
  · rw [if_neg hblank, if_pos habsolute] at h
    cases h
  by_cases hnull : '\x00' ∈ path.toList
  · rw [if_neg hblank, if_neg habsolute, if_pos hnull] at h
    cases h
  rw [if_neg hblank, if_neg habsolute, if_neg hnull] at h
  unfold location
  rw [if_neg habsolute]
  cases hfollow : tree.follow (root ++ pathNames path) with
  | none =>
      rw [hfollow] at h
      cases h
  | some real =>
      rw [hfollow] at h
      by_cases hin : root <+: real
      · simp only [hin, if_true] at h
        obtain rfl := Except.ok.inj h
        exact ⟨hin, linkFree_follow hfollow, rfl⟩
      · simp only [hin, if_false] at h
        cases h

/-- A path that leads out of the root is refused. -/
theorem resolve_outside (repr : String → String) {real : Place} (hreal : location root tree path = some real)
    (hout : ¬root <+: real) :
    (∃ message, resolve repr root tree path = .error (.escape message)) ∨
      ∃ message, resolve repr root tree path = .error (.invalid message) := by
  unfold resolve
  by_cases hblank : isBlank path = true
  · exact .inl ⟨_, if_pos hblank⟩
  by_cases habsolute : isAbsolute path = true
  · rw [if_neg hblank, if_pos habsolute]
    exact .inl ⟨_, rfl⟩
  by_cases hnull : '\x00' ∈ path.toList
  · rw [if_neg hblank, if_neg habsolute, if_pos hnull]
    exact .inr ⟨_, rfl⟩
  · rw [location, if_neg habsolute] at hreal
    rw [if_neg hblank, if_neg habsolute, if_neg hnull, hreal]
    simp only [hout, if_false]
    exact .inl ⟨_, rfl⟩

section Operations

variable (hin : root <+: target) (hfree : tree.LinkFree target)
include hin hfree

theorem confined_read : Confined root tree (read codec tree target) := by
  unfold read
  split
  · exact confined_raise root tree _
  · exact confined_answer root tree _
  · split
    · exact confined_raise root tree _
    · rename_i place bytes hopen
      obtain ⟨rfl, -⟩ := openRead_eq_ok hfree hopen
      split
      · exact confined_target hin fun _ _ => rfl
      · exact confined_target hin fun _ _ => rfl

theorem confined_list : Confined root tree (list tree target) := by
  unfold list
  split
  · exact confined_raise root tree _
  · exact confined_answer root tree _
  · split
    · exact confined_raise root tree _
    · rename_i place names hopen
      obtain ⟨rfl, -⟩ := openDir_eq_ok hfree hopen
      exact confined_target hin fun _ _ => rfl

theorem confined_delete : Confined root tree (delete tree target) := by
  unfold delete
  split
  · exact confined_raise root tree _
  · exact confined_answer root tree _
  · split
    · exact confined_raise root tree _
    · exact confined_answer root tree _
    · split
      · exact confined_raise root tree _
      · rename_i place after hunlink
        obtain ⟨rfl, -, hkept⟩ := unlink_eq_ok hfree hunlink
        exact confined_target hin hkept

omit hfree in
/-- A run that makes the directories above the target, and changes nothing else but the target. -/
theorem confined_made {result : Except Raised ToolResult} {between after : FileTree}
    {made : List Place} {touched : List (Access × Place)}
    (hmade : Made tree target.dropLast between made)
    (hkept : ∀ other, other ≠ target → after.find? other = between.find? other)
    (htouched : ∀ access place, (access, place) ∈ touched →
      access = .create ∧ place ∈ made ∨ place = target) :
    Confined root tree ⟨result, after, touched⟩ := by
  have hmadeAbove : ∀ place, ¬root <+: place → place <+: target.dropLast →
      tree.find? place = none → MadeAbove root tree after place := by
    intro place hout hplace hmissing
    have hne : place ≠ target := by
      rintro rfl
      exact hout hin
    refine ⟨?_, hmissing, ?_⟩
    · exact (List.prefix_or_prefix_of_prefix hin
        (hplace.trans (List.dropLast_prefix target))).resolve_left hout
    · rw [hkept place hne]
      exact hmade.new place hplace hmissing
  constructor
  · intro access place h
    by_cases hroot : root <+: place
    · exact .inl hroot
    · rcases htouched access place h with ⟨rfl, hplace⟩ | rfl
      · obtain ⟨hplace, hmissing⟩ := (hmade.made place).1 hplace
        exact .inr ⟨rfl, hmadeAbove place hroot hplace hmissing⟩
      · exact absurd hin hroot
  · intro place hout
    by_cases hnew : place <+: target.dropLast ∧ tree.find? place = none
    · exact .inr (hmadeAbove place hout hnew.1 hnew.2)
    · refine .inl ((hkept place ?_).trans (hmade.kept place hnew))
      rintro rfl
      exact hout hin

omit hin hfree in
theorem touched_write {made : List Place} {access : Access} {place : Place}
    (h : (access, place) ∈ made.map (Access.create, ·) ++ [(.write, target)]) :
    access = .create ∧ place ∈ made ∨ place = target := by
  rcases List.mem_append.1 h with h | h
  · obtain ⟨made, hmem, heq⟩ := List.mem_map.1 h
    obtain ⟨rfl, rfl⟩ := Prod.mk.inj heq
    exact .inl ⟨rfl, hmem⟩
  · exact .inr (Prod.mk.inj (List.mem_singleton.1 h)).2

theorem confined_write : Confined root tree (write codec tree target content) := by
  unfold write
  rcases makeDirs_cases (hfree.of_prefix (List.dropLast_prefix target)) with
    ⟨-, -, between, made, hmake, hmade⟩ | ⟨-, errno, hmake⟩
  · have hfree' : between.LinkFree target := hfree.congr hmade.link?
    rw [hmake]
    dsimp only
    split
    · exact confined_made hin hmade (fun _ _ => rfl) fun access place h =>
        touched_write (List.mem_append_left _ h)
    · rename_i place after hopen
      obtain ⟨rfl, hfile, hkept⟩ := openWrite_eq_ok hfree' hopen
      split
      · exact confined_made hin hmade hkept fun access place h => touched_write h
      · rename_i bytes hencode
        refine confined_made hin hmade (fun other hne => ?_) fun access place h => touched_write h
        rw [find?_setBytes hfile, if_neg hne]
        exact hkept other hne
  · rw [hmake]
    exact confined_raise root tree _

end Operations

end Runs

/-- **Confinement**: whatever a call reads, lists, makes, writes or deletes is in the root, and
nothing else changes, but that a write makes the missing directories above the root; a path that
leads out of the root is refused, with nothing touched. -/
theorem execute_confined (codec : Codec) (repr : String → String) (root : Place) (tree : FileTree)
    (call : Call) :
    Confined root tree (execute codec repr root tree call) ∧
      ∀ path real, call.path = some path → location root tree path = some real →
        ¬root <+: real → Refused tree (execute codec repr root tree call) := by
  unfold execute
  by_cases hop : call.op ∉ opCaps
  · rw [if_pos hop]
    exact ⟨confined_answer root tree _, fun _ _ _ _ _ => refused_failed tree _⟩
  rw [if_neg hop]
  cases hpath : call.path with
  | none => exact ⟨confined_answer root tree _, fun path _ h => absurd h.symm (Option.some_ne_none _)⟩
  | some path =>
      dsimp only
      constructor
      · cases hresolve : resolve repr root tree path with
        | error error =>
            cases error with
            | escape message => exact confined_answer root tree _
            | invalid message => exact confined_answer root tree _
            | loop => exact confined_raise root tree _
        | ok target =>
            obtain ⟨hin, hfree, -⟩ := resolve_spec hresolve
            dsimp only
            split_ifs
            · exact confined_read hin hfree
            · exact confined_list hin hfree
            · exact confined_write hin hfree
            · exact confined_delete hin hfree
      · intro path' real h hreal hout
        obtain rfl := Option.some.inj h
        rcases resolve_outside repr hreal hout with ⟨message, h⟩ | ⟨message, h⟩
        · rw [h]
          exact refused_failed tree _
        · rw [h]
          exact refused_failed tree _

/-! ## A root that is not there -/

/-- The encoding of seven bits. -/
def ascii : Codec where
  encode text :=
    if text.toList.all fun c => c.toNat < 128 then some (text.toList.map fun c => c.toNat.toUInt8)
    else none
  decode bytes :=
    if bytes.all fun b => b.toNat < 128 then
      some (String.ofList (bytes.map fun b => Char.ofNat b.toNat))
    else none
  decode_encode := by
    intro text bytes h
    split_ifs at h with hascii
    obtain rfl := Option.some.inj h
    have hbyte : ∀ c ∈ text.toList, c.toNat.toUInt8.toNat = c.toNat := by
      intro c hc
      have := of_decide_eq_true (List.all_eq_true.1 hascii c hc)
      rw [Nat.toUInt8, UInt8.toNat_ofNat']
      omega
    have hall : ((text.toList.map fun c => c.toNat.toUInt8).all fun b => b.toNat < 128) = true := by
      rw [List.all_map, List.all_eq_true]
      intro c hc
      have := of_decide_eq_true (List.all_eq_true.1 hascii c hc)
      rw [Function.comp_apply, hbyte c hc]
      exact decide_eq_true this
    have hchars : (text.toList.map fun c => c.toNat.toUInt8).map (fun b => Char.ofNat b.toNat) =
        text.toList := by
      rw [List.map_map]
      refine (List.map_congr_left fun c hc => ?_).trans (List.map_id _)
      rw [Function.comp_apply, hbyte c hc, Char.ofNat_toNat]
      rfl
    rw [hall, hchars, String.ofList_toList]
    rfl

/-- Every directory that is made is touched. -/
theorem created_write (codec : Codec) (content : String) {tree between : FileTree} {target : Place}
    {made : List Place} (hmake : tree.makeDirs target.dropLast = (.ok (), between, made)) :
    ∀ place ∈ made, (Access.create, place) ∈ (write codec tree target content).touched := by
  intro place hplace
  have hcreated : (Access.create, place) ∈ made.map (Access.create, ·) :=
    List.mem_map.2 ⟨place, hplace, rfl⟩
  unfold write
  rw [hmake]
  dsimp only
  split
  · exact hcreated
  · split
    · exact List.mem_append_left _ hcreated
    · exact List.mem_append_left _ hcreated

/-- A write makes a directory above the root. -/
theorem write_outside_root :
    ¬∀ (codec : Codec) (repr : String → String) (root : Place) (tree : FileTree) (call : Call),
      (∀ access place, (access, place) ∈ (execute codec repr root tree call).touched →
        root <+: place) ∧
      ∀ path real, call.path = some path → location root tree path = some real →
        ¬root <+: real → Refused tree (execute codec repr root tree call) := by
  intro h
  have hfree : bare.LinkFree ["srv", "scratch", "note.txt"] :=
    linkFree_bare (by decide) (by decide)
  have hresolve : resolve id ["srv", "scratch"] bare "note.txt" =
      .ok ["srv", "scratch", "note.txt"] := by
    have hfollow : bare.follow (["srv", "scratch"] ++ pathNames "note.txt") =
        some ["srv", "scratch", "note.txt"] := follow_linkFree hfree
    unfold resolve
    rw [hfollow]
    rfl
  obtain ⟨between, made, hmake, hmade⟩ := makeDirs_ok
    (hfree.of_prefix (List.dropLast_prefix ["srv", "scratch", "note.txt"])) (by decide) (by decide)
  have hcreated := created_write ascii "done" hmake ["srv"]
    ((hmade.made ["srv"]).2 ⟨by decide, find?_bare (by decide)⟩)
  have hexecute : execute ascii id ["srv", "scratch"] bare
      { op := "write", path := some "note.txt", content := "done" } =
        write ascii bare ["srv", "scratch", "note.txt"] "done" := by
    unfold execute
    rw [if_neg (by decide)]
    dsimp only
    rw [hresolve]
    rfl
  have hin := (h ascii id ["srv", "scratch"] bare
    { op := "write", path := some "note.txt", content := "done" }).1 .create ["srv"]
      (hexecute ▸ hcreated)
  exact absurd hin (by decide)

end AiStudio.Runtime.Filesystem
