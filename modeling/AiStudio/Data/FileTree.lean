import AiStudio.Data.Pieces
import AiStudio.Data.Table
import Mathlib.Data.List.Infix

/-!
# File trees

A tree of files, directories and symbolic links, the place a path leads to in it, and the system
calls on paths: each follows the links on its way. A path without links leads to itself, and the
calls on it act there.

- `linkFree_realPath`: where a path leads, no link is left.
- `realPath_congr`: only the links of a tree decide where a path leads.
- `makeDirs_spec`: what becomes of a directory and its missing parents.
-/

set_option autoImplicit false

namespace AiStudio.Data

/-- The names on the way from the root of the tree. -/
abbrev Place := List String

/-- What stands at a place. -/
inductive Entry where
  | file (bytes : List UInt8)
  | dir
  | link (target : String)
  deriving DecidableEq

def Entry.isFile : Entry → Bool
  | .file _ => true
  | .dir => false
  | .link _ => false

def Entry.isDir : Entry → Bool
  | .file _ => false
  | .dir => true
  | .link _ => false

/-- A file tree: the root is a directory, and everything else stands in one. -/
structure FileTree where
  entries : Table Place Entry
  root : entries.find? [] = some .dir
  parents : ∀ up name entry, entries.find? (up ++ [name]) = some entry →
    entries.find? up = some .dir

/-- The names of a path. -/
def pathNames (path : String) : List String :=
  (pieces (fun c => decide (c = '/')) path.toList).map String.ofList

/-- A path from the root of the tree. -/
def isAbsolute (path : String) : Bool := path.toList.head? = some '/'

/-- Where a path met at a place starts. -/
def startOf (here : Place) (path : String) : Place := if isAbsolute path then [] else here

namespace Table

variable {κ ρ : Type} [DecidableEq κ]

/-- One more row under a new key. -/
def add (t : Table κ ρ) {k : κ} (r : ρ) (h : t.find? k = none) : Table κ ρ :=
  ⟨t.rows ++ [(k, r)], t.nodup_concat r h⟩

theorem find?_add (t : Table κ ρ) {k : κ} (r : ρ) (h : t.find? k = none) (k' : κ) :
    (t.add r h).find? k' = if k' = k then some r else t.find? k' :=
  find?_insert (dif_pos h) k'

end Table

namespace FileTree

variable (t : FileTree)

/-- What stands at a place. -/
abbrev find? (place : Place) : Option Entry := t.entries.find? place

/-- The target of the link at a place. -/
def link? (place : Place) : Option String :=
  match t.find? place with
  | some (.link target) => some target
  | _ => none

/-! ## Real paths -/

/-- The links that are not being followed. -/
def idleLinks (active : List Place) : List (Place × Entry) :=
  t.entries.rows.filter fun row => (t.link? row.1).isSome && decide (row.1 ∉ active)

/-- Following a link leaves fewer of them. -/
theorem length_idleLinks_lt {place : Place} {active : List Place}
    (hlink : (t.link? place).isSome = true) (hidle : place ∉ active) :
    (t.idleLinks (place :: active)).length < (t.idleLinks active).length := by
  obtain ⟨target, htarget⟩ := Option.isSome_iff_exists.1 hlink
  have hentry : ∃ entry, t.entries.find? place = some entry := by
    unfold link? find? at htarget
    split at htarget
    · exact ⟨_, ‹_›⟩
    · cases htarget
  obtain ⟨entry, hentry⟩ := hentry
  have hfilter : t.idleLinks (place :: active) =
      (t.idleLinks active).filter fun row => decide (row.1 ≠ place) := by
    unfold idleLinks
    rw [List.filter_filter]
    refine List.filter_congr fun row _ => ?_
    by_cases hrow : row.1 = place <;> simp [hrow]
  rw [hfilter, List.length_filter_lt_length_iff_exists]
  refine ⟨(place, entry), List.mem_filter.2 ⟨?_, ?_⟩, by simp⟩
  · exact (t.entries.find?_eq_some_iff place entry).1 hentry
  · simp [hlink, hidle]

/-- Where a path leads from a place: every link is followed, with the links being followed kept in
`active`; a link that leads to itself leads nowhere. What is missing is taken as it is named. -/
def realPath (active : List Place) (here : Place) : List String → Option Place
  | [] => some here
  | name :: rest =>
      if name = "." then realPath active here rest
      else if name = ".." then realPath active here.dropLast rest
      else
        match _hlink : t.link? (here ++ [name]) with
        | none => realPath active (here ++ [name]) rest
        | some target =>
            if _hactive : here ++ [name] ∈ active then none
            else
              match realPath ((here ++ [name]) :: active) (startOf here target)
                  (pathNames target) with
              | none => none
              | some place => realPath active place rest
termination_by rest => ((t.idleLinks active).length, rest.length)
decreasing_by
  · exact Prod.Lex.right _ (Nat.lt_succ_self _)
  · exact Prod.Lex.right _ (Nat.lt_succ_self _)
  · exact Prod.Lex.right _ (Nat.lt_succ_self _)
  · exact Prod.Lex.left _ _ (t.length_idleLinks_lt (by rw [_hlink]; rfl) _hactive)
  · exact Prod.Lex.right _ (Nat.lt_succ_self _)

/-- Where a path from the root of the tree leads. -/
def follow (path : Place) : Option Place := t.realPath [] [] path

/-- A place that is reached without following a link, and named without dots. -/
structure LinkFree (place : Place) : Prop where
  link : ∀ above, above <+: place → t.link? above = none
  dots : "." ∉ place ∧ ".." ∉ place

section Links

variable {t} {t' : FileTree} {active : List Place} {here place : Place} {rest : List String}

theorem linkFree_nil (h : t.link? [] = none) : t.LinkFree [] where
  link := by
    intro above habove
    rw [List.prefix_nil.1 habove]
    exact h
  dots := ⟨List.not_mem_nil, List.not_mem_nil⟩

theorem link?_nil (t : FileTree) : t.link? [] = none := by
  have hroot : t.find? [] = some .dir := t.root
  rw [link?, hroot]

theorem LinkFree.of_prefix (hplace : t.LinkFree place) (h : here <+: place) : t.LinkFree here where
  link := fun above habove => hplace.link above (habove.trans h)
  dots := ⟨fun hdot => hplace.dots.1 (h.subset hdot), fun hdots => hplace.dots.2 (h.subset hdots)⟩

theorem LinkFree.concat {name : String} (hhere : t.LinkFree here)
    (hlink : t.link? (here ++ [name]) = none) (hdot : name ≠ ".") (hdots : name ≠ "..") :
    t.LinkFree (here ++ [name]) where
  link := by
    intro above habove
    rcases List.prefix_concat_iff.1 habove with rfl | habove
    · exact hlink
    · exact hhere.link above habove
  dots := by
    constructor
    · intro h
      rcases List.mem_append.1 h with h | h
      · exact hhere.dots.1 h
      · exact hdot (List.mem_singleton.1 h).symm
    · intro h
      rcases List.mem_append.1 h with h | h
      · exact hhere.dots.2 h
      · exact hdots (List.mem_singleton.1 h).symm

section Equations

variable {name target : String}

theorem realPath_plain (hdot : name ≠ ".") (hdots : name ≠ "..")
    (hlink : t.link? (here ++ [name]) = none) :
    t.realPath active here (name :: rest) = t.realPath active (here ++ [name]) rest := by
  rw [realPath, if_neg hdot, if_neg hdots]
  split
  · rfl
  · rename_i heq
    exact absurd (hlink.symm.trans heq).symm (Option.some_ne_none _)

theorem realPath_link (hdot : name ≠ ".") (hdots : name ≠ "..")
    (hlink : t.link? (here ++ [name]) = some target) :
    t.realPath active here (name :: rest) =
      if here ++ [name] ∈ active then none
      else (t.realPath ((here ++ [name]) :: active) (startOf here target)
        (pathNames target)).bind fun place => t.realPath active place rest := by
  rw [realPath, if_neg hdot, if_neg hdots]
  split
  · rename_i heq
    exact absurd (hlink.symm.trans heq) (Option.some_ne_none _)
  · rename_i target' heq
    obtain rfl := Option.some.inj (hlink.symm.trans heq)
    split
    · rfl
    · cases t.realPath ((here ++ [name]) :: active) (startOf here target) (pathNames target) <;> rfl

end Equations

/-- Where a path leads, no link is left to follow. -/
theorem linkFree_realPath (hhere : t.LinkFree here) (h : t.realPath active here rest = some place) :
    t.LinkFree place := by
  fun_induction realPath t active here rest generalizing place with
  | case1 active here =>
      obtain rfl := Option.some.inj h
      exact hhere
  | case2 active here rest ih => exact ih hhere h
  | case3 active here rest _ ih => exact ih (hhere.of_prefix (List.dropLast_prefix here)) h
  | case4 active here name rest hdot hdots hlink ih =>
      exact ih (hhere.concat hlink hdot hdots) h
  | case5 => cases h
  | case6 => cases h
  | case7 active here name rest hdot hdots target hlink hidle next hnext ihlink ihrest =>
      refine ihrest (ihlink ?_ hnext) h
      unfold startOf
      split
      · exact linkFree_nil t.link?_nil
      · exact hhere

theorem linkFree_follow (h : t.follow rest = some place) : t.LinkFree place :=
  linkFree_realPath (linkFree_nil t.link?_nil) h

/-- A path without links leads to itself. -/
theorem realPath_linkFree (here : Place) (h : t.LinkFree (here ++ rest)) :
    t.realPath active here rest = some (here ++ rest) := by
  induction rest generalizing here with
  | nil => rw [realPath, List.append_nil]
  | cons name rest ih =>
      have hdots := h.dots
      have hdot : name ≠ "." := fun heq => hdots.1 (by simp [heq])
      have hdots : name ≠ ".." := fun heq => hdots.2 (by simp [heq])
      have hlink : t.link? (here ++ [name]) = none :=
        h.link _ ⟨rest, by rw [List.append_assoc, List.singleton_append]⟩
      rw [List.append_cons] at h ⊢
      rw [realPath_plain hdot hdots hlink]
      exact ih _ h

theorem follow_linkFree (h : t.LinkFree place) : t.follow place = some place :=
  realPath_linkFree [] h

/-- Only the links of a tree decide where a path leads. -/
theorem realPath_congr (hlinks : ∀ place, t.link? place = t'.link? place) :
    t.realPath active here rest = t'.realPath active here rest := by
  fun_induction realPath t active here rest with
  | case1 active here => rw [realPath]
  | case2 active here rest ih => rw [realPath, if_pos rfl, ih]
  | case3 active here rest hdot ih => rw [realPath, if_neg hdot, if_pos rfl, ih]
  | case4 active here name rest hdot hdots hlink ih =>
      rw [realPath_plain hdot hdots ((hlinks _).symm.trans hlink), ih]
  | case5 active here name rest hdot hdots target hlink hactive =>
      rw [realPath_link hdot hdots ((hlinks _).symm.trans hlink), if_pos hactive]
  | case6 active here name rest hdot hdots target hlink hidle hnone ihlink =>
      rw [realPath_link hdot hdots ((hlinks _).symm.trans hlink), if_neg hidle, ← ihlink, hnone]
      rfl
  | case7 active here name rest hdot hdots target hlink hidle next hnext ihlink ihrest =>
      rw [realPath_link hdot hdots ((hlinks _).symm.trans hlink), if_neg hidle, ← ihlink, hnext]
      exact ihrest

end Links

/-! ## Changes of a tree -/

/-- A new entry in a directory. -/
def add (place : Place) (entry : Entry) (hup : t.find? place.dropLast = some .dir)
    (hnone : t.find? place = none) : FileTree where
  entries := t.entries.add entry hnone
  root := by
    have hne : ([] : Place) ≠ place := by
      rintro rfl
      exact absurd (hnone.symm.trans t.root).symm (Option.some_ne_none _)
    rw [Table.find?_add, if_neg hne]
    exact t.root
  parents := by
    intro above name found h
    rw [Table.find?_add] at h ⊢
    split_ifs at h with hplace
    · have hne : above ≠ place := fun heq => by simp [heq] at hplace
      rw [← hplace, List.dropLast_concat] at hup
      rw [if_neg hne]
      exact hup
    · have hdir := t.parents above name found h
      have hne : above ≠ place := by
        rintro rfl
        exact absurd (hnone.symm.trans hdir).symm (Option.some_ne_none _)
      rw [if_neg hne]
      exact hdir

/-- The files of a tree with the bytes of one replaced. -/
def setBytes (place : Place) (bytes : List UInt8) : FileTree where
  entries := t.entries.modify place fun entry =>
    match entry with
    | .file _ => .file bytes
    | other => other
  root := by
    rw [Table.find?_modify, t.root]
    split_ifs <;> rfl
  parents := by
    intro up name found h
    have hentry : ∃ entry, t.entries.find? (up ++ [name]) = some entry := by
      rw [Table.find?_modify] at h
      split_ifs at h
      · obtain ⟨entry, hentry, -⟩ := Option.map_eq_some_iff.1 h
        exact ⟨entry, hentry⟩
      · exact ⟨found, h⟩
    obtain ⟨entry, hentry⟩ := hentry
    rw [Table.find?_modify, t.parents up name entry hentry]
    split_ifs <;> rfl

/-- The tree without an entry that is no directory. -/
def remove (place : Place) (hentry : t.find? place ≠ some .dir) : FileTree where
  entries := t.entries.deleteWhere fun other _ => decide (other = place)
  root := by
    have hne : ([] : Place) ≠ place := by
      rintro rfl
      exact hentry t.root
    rw [Table.find?_deleteWhere, t.root]
    simp [hne]
  parents := by
    intro up name found h
    rw [Table.find?_deleteWhere, Option.filter_eq_some_iff] at h
    have hdir := t.parents up name found h.1
    have hne : up ≠ place := by
      rintro rfl
      exact hentry hdir
    rw [Table.find?_deleteWhere, hdir]
    simp [hne]

section Changes

variable {t} {place : Place}

theorem find?_addEntry {entry : Entry} (hup : t.find? place.dropLast = some .dir)
    (hnone : t.find? place = none) (other : Place) :
    (t.add place entry hup hnone).find? other =
      if other = place then some entry else t.find? other :=
  Table.find?_add t.entries entry hnone other

theorem find?_setBytes {old : List UInt8} (hfile : t.find? place = some (.file old))
    (bytes : List UInt8) (other : Place) :
    (t.setBytes place bytes).find? other =
      if other = place then some (.file bytes) else t.find? other := by
  unfold find? setBytes
  rw [Table.find?_modify]
  split_ifs with h
  · rw [h]
    rw [show t.entries.find? place = some (.file old) from hfile]
    rfl
  · rfl

theorem find?_remove (hentry : t.find? place ≠ some .dir) (other : Place) :
    (t.remove place hentry).find? other = if other = place then none else t.find? other := by
  unfold find? remove
  rw [Table.find?_deleteWhere]
  split_ifs with h
  · simp [h]
  · cases t.entries.find? other <;> simp [h]

/-- Everything above an entry is a directory. -/
theorem find?_above {above : Place} {entry : Entry} (hentry : t.find? place = some entry)
    (habove : above <+: place) (hne : above ≠ place) : t.find? above = some .dir := by
  obtain ⟨rest, rfl⟩ := habove
  induction rest using List.reverseRecOn generalizing entry with
  | nil => exact absurd (List.append_nil above).symm hne
  | append_singleton rest name ih =>
      rw [← List.append_assoc] at hentry
      have hdir := t.parents _ _ _ hentry
      by_cases hrest : rest = []
      · rw [hrest, List.append_nil] at hdir
        exact hdir
      · exact ih hdir fun heq => hrest (List.append_right_eq_self.1 heq.symm)

end Changes

/-! ## System calls -/

/-- What a system call fails with. -/
inductive Errno where
  | enoent
  | enotdir
  | eexist
  | eisdir
  | eloop
  | enametoolong
  deriving DecidableEq

/-- A name of more than 255 bytes, or a path of more than 4095. -/
def tooLong (path : Place) : Bool :=
  (path.any fun name => 255 < name.utf8ByteSize) ||
    decide (4095 < (path.map fun name => name.utf8ByteSize + 1).sum)

/-- A file stands at the place or above it. -/
def blocked (place : Place) : Bool :=
  place.inits.any fun above =>
    match t.find? above with
    | some (.file _) => true
    | _ => false

/-- Why there is nothing at a place. -/
def missing (place : Place) : Errno := if t.blocked place then .enotdir else .enoent

/-- `stat`. -/
def stat (path : Place) : Except Errno Entry :=
  if tooLong path then .error .enametoolong
  else
    match t.follow path with
    | none => .error .eloop
    | some place =>
        match t.find? place with
        | some entry => .ok entry
        | none => .error (t.missing place)

/-- `mkdir`, with the place of the new directory. -/
def mkdir (path : Place) : Except Errno (Place × FileTree) :=
  if tooLong path then .error .enametoolong
  else
    match path.getLast? with
    | none => .error .eexist
    | some name =>
        match t.follow path.dropLast with
        | none => .error .eloop
        | some up =>
            if hnone : t.find? (up ++ [name]) = none then
              if hup : t.find? (up ++ [name]).dropLast = some .dir then
                .ok (up ++ [name], t.add (up ++ [name]) .dir hup hnone)
              else .error (t.missing (up ++ [name]))
            else .error .eexist

/-- `open` for writing: the file is emptied, or made. -/
def openWrite (path : Place) : Except Errno (Place × FileTree) :=
  if tooLong path then .error .enametoolong
  else
    match t.follow path with
    | none => .error .eloop
    | some place =>
        if hnone : t.find? place = none then
          if hup : t.find? place.dropLast = some .dir then
            .ok (place, t.add place (.file []) hup hnone)
          else .error (t.missing place)
        else if t.find? place = some .dir then .error .eisdir
        else .ok (place, t.setBytes place [])

/-- `open` for reading, with the bytes of the file. -/
def openRead (path : Place) : Except Errno (Place × List UInt8) :=
  if tooLong path then .error .enametoolong
  else
    match t.follow path with
    | none => .error .eloop
    | some place =>
        match t.find? place with
        | some (.file bytes) => .ok (place, bytes)
        | some .dir => .error .eisdir
        | some (.link _) => .error .eloop
        | none => .error (t.missing place)

/-- The names in a directory. -/
def children (place : Place) : List String :=
  t.entries.rows.filterMap fun row =>
    if row.1.dropLast = place then row.1.getLast? else none

/-- `opendir`, with the names in the directory. -/
def openDir (path : Place) : Except Errno (Place × List String) :=
  if tooLong path then .error .enametoolong
  else
    match t.follow path with
    | none => .error .eloop
    | some place =>
        match t.find? place with
        | some .dir => .ok (place, t.children place)
        | some _ => .error .enotdir
        | none => .error (t.missing place)

/-- `unlink`. -/
def unlink (path : Place) : Except Errno (Place × FileTree) :=
  if tooLong path then .error .enametoolong
  else
    match path.getLast? with
    | none => .error .eisdir
    | some name =>
        match t.follow path.dropLast with
        | none => .error .eloop
        | some up =>
            if hdir : t.find? (up ++ [name]) = some .dir then .error .eisdir
            else if t.find? (up ++ [name]) = none then .error (t.missing (up ++ [name]))
            else .ok (up ++ [name], t.remove (up ++ [name]) hdir)

/-- A directory with its missing parents; one that is there is no error. The places are those of
the new directories. -/
def makeDirs (path : Place) : Except Errno Unit × FileTree × List Place :=
  match t.mkdir path with
  | .ok (place, t') => (.ok (), t', [place])
  | .error .enoent =>
      if path = [] then (.error .enoent, t, [])
      else
        match makeDirs path.dropLast with
        | (.error errno, t', made) => (.error errno, t', made)
        | (.ok (), t', made) =>
            match t'.mkdir path with
            | .ok (place, t'') => (.ok (), t'', made ++ [place])
            | .error errno =>
                if t'.stat path = .ok .dir then (.ok (), t', made) else (.error errno, t', made)
  | .error errno =>
      if t.stat path = .ok .dir then (.ok (), t, []) else (.error errno, t, [])
termination_by path.length
decreasing_by
  rw [List.length_dropLast]
  exact Nat.sub_lt (List.length_pos_of_ne_nil ‹_›) Nat.one_pos

section Calls

variable {t} {t' : FileTree} {path place : Place}

theorem tooLong_of_above {above : Place} (habove : above <+: path) (h : tooLong path = false) :
    tooLong above = false := by
  obtain ⟨rest, rfl⟩ := habove
  simp only [tooLong, List.any_append, List.map_append, List.sum_append, Bool.or_eq_false_iff,
    decide_eq_false_iff_not] at h ⊢
  exact ⟨h.1.1, by omega⟩

theorem blocked_iff : t.blocked place = true ↔
    ∃ above bytes, above <+: place ∧ t.find? above = some (.file bytes) := by
  unfold blocked
  rw [List.any_eq_true]
  constructor
  · rintro ⟨above, hmem, h⟩
    rw [List.mem_inits] at hmem
    split at h
    · exact ⟨above, _, hmem, ‹_›⟩
    · cases h
  · rintro ⟨above, bytes, hmem, h⟩
    refine ⟨above, (List.mem_inits _ _).2 hmem, ?_⟩
    rw [h]

theorem blocked_of_above {above : Place} (habove : above <+: place)
    (h : t.blocked above = true) : t.blocked place = true := by
  obtain ⟨top, bytes, htop, hfile⟩ := blocked_iff.1 h
  exact blocked_iff.2 ⟨top, bytes, htop.trans habove, hfile⟩

theorem not_blocked_of_dir (h : t.find? place = some .dir) : t.blocked place = false := by
  rw [Bool.eq_false_iff]
  intro hblocked
  obtain ⟨above, bytes, habove, hfile⟩ := blocked_iff.1 hblocked
  by_cases heq : above = place
  · rw [heq, h] at hfile
    cases hfile
  · rw [find?_above h habove heq] at hfile
    cases hfile

theorem LinkFree.congr (hlinks : ∀ place, t.link? place = t'.link? place)
    (h : t.LinkFree place) : t'.LinkFree place where
  link := fun above habove => (hlinks above).symm.trans (h.link above habove)
  dots := h.dots

/-- An entry at a place without links is a file or a directory. -/
theorem LinkFree.entry (h : t.LinkFree place) {entry : Entry} (hentry : t.find? place = some entry) :
    (∃ bytes, entry = .file bytes) ∨ entry = .dir := by
  cases entry with
  | file bytes => exact .inl ⟨bytes, rfl⟩
  | dir => exact .inr rfl
  | link target =>
      have hlink := h.link place (List.prefix_refl place)
      rw [link?, hentry] at hlink
      cases hlink

/-- The links of a tree that differs in new files and directories only. -/
theorem link?_congr (h : ∀ other, t'.find? other = t.find? other ∨
      (t.find? other = none ∧ ∀ target, t'.find? other ≠ some (.link target)) ∨
      ∃ old new, t.find? other = some (.file old) ∧ t'.find? other = some (.file new))
    (other : Place) : t.link? other = t'.link? other := by
  unfold link?
  rcases h other with heq | ⟨hnone, hnew⟩ | ⟨old, new, hold, hnew⟩
  · rw [heq]
  · rw [hnone]
    cases hfound : t'.find? other with
    | none => rfl
    | some entry =>
        cases entry with
        | file bytes => rfl
        | dir => rfl
        | link target => exact absurd hfound (hnew target)
  · rw [hold, hnew]

section LinkFree

variable (h : t.LinkFree path) (hshort : tooLong path = false)
include h hshort

theorem stat_linkFree : t.stat path =
    match t.find? path with
    | some entry => .ok entry
    | none => .error (t.missing path) := by
  rw [stat, hshort, follow_linkFree h]
  rfl

theorem stat_eq_dir_iff : t.stat path = .ok .dir ↔ t.find? path = some .dir := by
  rw [stat_linkFree h hshort]
  cases t.find? path with
  | none => simp
  | some entry => simp

theorem mkdir_linkFree : t.mkdir path =
    if hnone : t.find? path = none then
      if hup : t.find? path.dropLast = some .dir then .ok (path, t.add path .dir hup hnone)
      else .error (t.missing path)
    else .error .eexist := by
  rw [mkdir, hshort]
  rcases List.eq_nil_or_concat' path with rfl | ⟨up, name, rfl⟩
  · have hroot : ¬t.find? [] = none := fun hnone =>
      absurd (hnone.symm.trans t.root).symm (Option.some_ne_none _)
    rw [dif_neg hroot]
    rfl
  · have hup : t.follow up = some up :=
      follow_linkFree (h.of_prefix (List.prefix_append up [name]))
    simp only [List.getLast?_concat, List.dropLast_concat, hup]
    rfl

theorem openWrite_linkFree : t.openWrite path =
    if hnone : t.find? path = none then
      if hup : t.find? path.dropLast = some .dir then .ok (path, t.add path (.file []) hup hnone)
      else .error (t.missing path)
    else if t.find? path = some .dir then .error .eisdir
    else .ok (path, t.setBytes path []) := by
  rw [openWrite, hshort, follow_linkFree h]
  rfl

theorem openRead_linkFree {bytes : List UInt8} (hfile : t.find? path = some (.file bytes)) :
    t.openRead path = .ok (path, bytes) := by
  rw [openRead, hshort, follow_linkFree h]
  simp only [hfile]
  rfl

theorem openDir_linkFree (hdir : t.find? path = some .dir) :
    t.openDir path = .ok (path, t.children path) := by
  rw [openDir, hshort, follow_linkFree h]
  simp only [hdir]
  rfl

theorem unlink_linkFree : t.unlink path =
    if hdir : t.find? path = some .dir then .error .eisdir
    else if t.find? path = none then .error (t.missing path)
    else .ok (path, t.remove path hdir) := by
  rw [unlink, hshort]
  rcases List.eq_nil_or_concat' path with rfl | ⟨up, name, rfl⟩
  · rw [dif_pos t.root]
    rfl
  · have hup : t.follow up = some up :=
      follow_linkFree (h.of_prefix (List.prefix_append up [name]))
    simp only [List.getLast?_concat, List.dropLast_concat, hup]
    rfl

end LinkFree

section Successes

variable (h : t.LinkFree path)
include h

theorem openRead_eq_ok {bytes : List UInt8} (hok : t.openRead path = .ok (place, bytes)) :
    place = path ∧ t.find? path = some (.file bytes) := by
  rw [openRead, follow_linkFree h] at hok
  split_ifs at hok
  simp only at hok
  split at hok <;> cases hok
  exact ⟨rfl, ‹_›⟩

theorem openDir_eq_ok {names : List String} (hok : t.openDir path = .ok (place, names)) :
    place = path ∧ t.find? path = some .dir := by
  rw [openDir, follow_linkFree h] at hok
  split_ifs at hok
  simp only at hok
  split at hok <;> cases hok
  exact ⟨rfl, ‹_›⟩

/-- What opening for writing changes: the file is there, and empty. -/
theorem openWrite_eq_ok (hok : t.openWrite path = .ok (place, t')) :
    place = path ∧ t'.find? path = some (.file []) ∧
      ∀ other, other ≠ path → t'.find? other = t.find? other := by
  cases hshort : tooLong path with
  | true =>
      rw [openWrite, if_pos hshort] at hok
      cases hok
  | false =>
      rw [openWrite_linkFree h hshort] at hok
      split_ifs at hok with hnone hup hdir
      · cases hok
        refine ⟨rfl, ?_, fun other hne => ?_⟩
        · rw [find?_addEntry, if_pos rfl]
        · rw [find?_addEntry, if_neg hne]
      · cases hok
        obtain ⟨entry, hentry⟩ := Option.ne_none_iff_exists'.1 hnone
        rcases h.entry hentry with ⟨bytes, rfl⟩ | rfl
        · refine ⟨rfl, ?_, fun other hne => ?_⟩
          · rw [find?_setBytes hentry, if_pos rfl]
          · rw [find?_setBytes hentry, if_neg hne]
        · exact absurd hentry hdir

/-- What is opened for writing is no directory. -/
theorem openWrite_guard {opened : Place × FileTree} (hok : t.openWrite path = .ok opened) :
    tooLong path = false ∧ t.find? path ≠ some .dir := by
  cases hshort : tooLong path with
  | true =>
      rw [openWrite, if_pos hshort] at hok
      cases hok
  | false =>
      rw [openWrite_linkFree h hshort] at hok
      split_ifs at hok with hnone hup hdir
      · exact ⟨rfl, fun hdir => absurd (hnone.symm.trans hdir).symm (Option.some_ne_none _)⟩
      · exact ⟨rfl, hdir⟩

/-- What unlinking changes: the entry is gone. -/
theorem unlink_eq_ok (hok : t.unlink path = .ok (place, t')) :
    place = path ∧ t'.find? path = none ∧
      ∀ other, other ≠ path → t'.find? other = t.find? other := by
  cases hshort : tooLong path with
  | true =>
      rw [unlink, if_pos hshort] at hok
      cases hok
  | false =>
      rw [unlink_linkFree h hshort] at hok
      split_ifs at hok with hdir hnone
      cases hok
      refine ⟨rfl, ?_, fun other hne => ?_⟩
      · rw [find?_remove, if_pos rfl]
      · rw [find?_remove, if_neg hne]

end Successes

end Calls

/-! ## Directories with their parents -/

/-- The tree has the missing directories down to a place, and `made` lists them. -/
structure Made (t : FileTree) (path : Place) (t' : FileTree) (made : List Place) : Prop where
  new : ∀ place, place <+: path → t.find? place = none → t'.find? place = some .dir
  kept : ∀ place, ¬(place <+: path ∧ t.find? place = none) → t'.find? place = t.find? place
  made : ∀ place, place ∈ made ↔ place <+: path ∧ t.find? place = none

section MakeDirs

variable {t} {t' : FileTree} {path : Place} {made : List Place}

theorem Made.link? (hmade : Made t path t' made) (place : Place) : t.link? place = t'.link? place := by
  refine link?_congr (fun other => ?_) place
  by_cases hnew : other <+: path ∧ t.find? other = none
  · refine .inr (.inl ⟨hnew.2, fun target htarget => ?_⟩)
    rw [hmade.new other hnew.1 hnew.2] at htarget
    cases htarget
  · exact .inl (hmade.kept other hnew)

/-- Nothing is made of a directory that is there. -/
theorem made_nil (hdir : t.find? path = some .dir) : Made t path t [] where
  new := by
    intro place hplace hmissing
    by_cases heq : place = path
    · rw [heq]
      exact hdir
    · exact find?_above hdir hplace heq
  kept := fun _ _ => rfl
  made := by
    intro place
    refine iff_of_false List.not_mem_nil ?_
    rintro ⟨hplace, hmissing⟩
    by_cases heq : place = path
    · rw [heq, hdir] at hmissing
      cases hmissing
    · rw [find?_above hdir hplace heq] at hmissing
      cases hmissing

/-- What is missing above an entry in a directory is that entry. -/
theorem eq_of_missing {place : Place} (hup : t.find? path.dropLast = some .dir)
    (hplace : place <+: path) (hmissing : t.find? place = none) : place = path := by
  by_contra hne
  have habove : place <+: path.dropLast := by
    rcases List.eq_nil_or_concat' path with rfl | ⟨up, name, rfl⟩
    · exact absurd (List.prefix_nil.1 hplace) hne
    · rw [List.dropLast_concat]
      exact (List.prefix_concat_iff.1 hplace).resolve_left hne
  have hdir : t.find? place = some .dir := by
    by_cases hself : place = path.dropLast
    · rw [hself]
      exact hup
    · exact find?_above hup habove hself
  exact absurd (hmissing.symm.trans hdir).symm (Option.some_ne_none _)

/-- A directory in one that is there. -/
theorem made_add (hup : t.find? path.dropLast = some .dir) (hnone : t.find? path = none) :
    Made t path (t.add path .dir hup hnone) [path] where
  new := by
    intro place hplace hmissing
    rw [find?_addEntry, if_pos (eq_of_missing hup hplace hmissing)]
  kept := by
    intro place hplace
    rw [find?_addEntry]
    refine if_neg fun heq => hplace ?_
    rw [heq]
    exact ⟨List.prefix_refl path, hnone⟩
  made := by
    intro place
    rw [List.mem_singleton]
    constructor
    · rintro rfl
      exact ⟨List.prefix_refl place, hnone⟩
    · rintro ⟨hplace, hmissing⟩
      exact eq_of_missing hup hplace hmissing

/-- A directory in one that was made for it. -/
theorem Made.concat {up : Place} {name : String} (hmade : Made t up t' made)
    (hentry : t.find? (up ++ [name]) = none)
    (hup : t'.find? (up ++ [name]).dropLast = some .dir) (hnone : t'.find? (up ++ [name]) = none) :
    Made t (up ++ [name]) (t'.add (up ++ [name]) .dir hup hnone) (made ++ [up ++ [name]]) where
  new := by
    intro place hplace hmissing
    rw [find?_addEntry]
    by_cases heq : place = up ++ [name]
    · rw [if_pos heq]
    · rw [if_neg heq]
      exact hmade.new place ((List.prefix_concat_iff.1 hplace).resolve_left heq) hmissing
  kept := by
    intro place hplace
    have hne : place ≠ up ++ [name] := by
      rintro rfl
      exact hplace ⟨List.prefix_refl _, hentry⟩
    rw [find?_addEntry, if_neg hne]
    exact hmade.kept place fun hp => hplace ⟨hp.1.trans (List.prefix_append up [name]), hp.2⟩
  made := by
    intro place
    rw [List.mem_append, List.mem_singleton, hmade.made, List.prefix_concat_iff]
    constructor
    · rintro (⟨hplace, hmissing⟩ | rfl)
      · exact ⟨.inr hplace, hmissing⟩
      · exact ⟨.inl rfl, hentry⟩
    · rintro ⟨rfl | hplace, hmissing⟩
      · exact .inr rfl
      · exact .inl ⟨hplace, hmissing⟩

/-- Where no file is in the way the directory is made, with its missing parents. -/
theorem makeDirs_ok (h : t.LinkFree path) (hshort : tooLong path = false)
    (hclear : t.blocked path = false) :
    ∃ t' made, t.makeDirs path = (.ok (), t', made) ∧ Made t path t' made := by
  induction path using List.reverseRecOn with
  | nil =>
      refine ⟨t, [], ?_, made_nil t.root⟩
      have hdir := (stat_eq_dir_iff h hshort).2 t.root
      have hmkdir : t.mkdir [] = .error .eexist := rfl
      rw [makeDirs, hmkdir]
      simp only [hdir, if_true]
  | append_singleton up name ih =>
      have hprefix : up <+: up ++ [name] := List.prefix_append up [name]
      have hmkdir := mkdir_linkFree h hshort
      cases hentry : t.find? (up ++ [name]) with
      | some entry =>
          have hsome : ¬t.find? (up ++ [name]) = none := by
            rw [hentry]
            exact Option.some_ne_none _
          rw [dif_neg hsome] at hmkdir
          rcases h.entry hentry with ⟨bytes, rfl⟩ | rfl
          · rw [Bool.eq_false_iff] at hclear
            exact absurd (blocked_iff.2 ⟨_, bytes, List.prefix_refl _, hentry⟩) hclear
          · refine ⟨t, [], ?_, made_nil hentry⟩
            rw [makeDirs, hmkdir]
            simp only [(stat_eq_dir_iff h hshort).2 hentry, if_true]
      | none =>
          rw [dif_pos hentry] at hmkdir
          by_cases hup : t.find? (up ++ [name]).dropLast = some .dir
          · rw [dif_pos hup] at hmkdir
            refine ⟨_, _, ?_, made_add hup hentry⟩
            rw [makeDirs, hmkdir]
          · have hmissing : t.missing (up ++ [name]) = .enoent := by
              rw [missing, hclear]
              rfl
            rw [dif_neg hup, hmissing] at hmkdir
            rw [List.dropLast_concat] at hup
            have hclearUp : t.blocked up = false := by
              rw [Bool.eq_false_iff] at hclear ⊢
              exact fun hblocked => hclear (blocked_of_above hprefix hblocked)
            obtain ⟨t₁, made, hmake, hmade⟩ := ih (h.of_prefix hprefix)
              (tooLong_of_above hprefix hshort) hclearUp
            have hnone : t₁.find? (up ++ [name]) = none := by
              rw [hmade.kept _ fun hp => absurd hp.1.length_le (by simp)]
              exact hentry
            have hdir : t₁.find? (up ++ [name]).dropLast = some .dir := by
              rw [List.dropLast_concat]
              cases hold : t.find? up with
              | none => exact hmade.new up (List.prefix_refl up) hold
              | some entry =>
                  rcases (h.of_prefix hprefix).entry hold with ⟨bytes, rfl⟩ | rfl
                  · rw [Bool.eq_false_iff] at hclearUp
                    exact absurd (blocked_iff.2 ⟨_, bytes, List.prefix_refl _, hold⟩) hclearUp
                  · exact absurd hold hup
            have hmkdir₁ := mkdir_linkFree (h.congr hmade.link?) hshort
            rw [dif_pos hnone, dif_pos hdir] at hmkdir₁
            refine ⟨_, _, ?_, hmade.concat hentry hdir hnone⟩
            have hne : ¬up ++ [name] = [] := List.append_ne_nil_of_right_ne_nil up (by simp)
            rw [makeDirs, hmkdir]
            simp only [hne, if_false, List.dropLast_concat, hmake, hmkdir₁]

/-- Where a file is in the way, or the path too long, nothing is made. -/
theorem makeDirs_error (h : t.LinkFree path)
    (hbad : tooLong path = true ∨ t.blocked path = true) :
    ∃ errno, t.makeDirs path = (.error errno, t, []) := by
  cases hshort : tooLong path with
  | true =>
      have hmkdir : t.mkdir path = .error .enametoolong := by
        rw [mkdir, hshort]
        rfl
      have hstat : ¬t.stat path = .ok .dir := by
        rw [stat, hshort]
        rintro ⟨⟩
      refine ⟨.enametoolong, ?_⟩
      rw [makeDirs, hmkdir]
      simp only [hstat, if_false]
  | false =>
      have hblocked := hbad.resolve_left (by rw [hshort]; exact Bool.false_ne_true)
      have hmkdir := mkdir_linkFree h hshort
      have hnotdir : ¬t.find? path = some .dir := by
        intro hdir
        rw [not_blocked_of_dir hdir] at hblocked
        cases hblocked
      have hstat : ¬t.stat path = .ok .dir := fun hdir => hnotdir ((stat_eq_dir_iff h hshort).1 hdir)
      by_cases hnone : t.find? path = none
      · have hmissing : t.missing path = .enotdir := by
          rw [missing, hblocked]
          rfl
        have hup : ¬t.find? path.dropLast = some .dir := by
          intro hup
          obtain ⟨above, bytes, habove, hfile⟩ := blocked_iff.1 hblocked
          have hne : above ≠ path := by
            rintro rfl
            exact absurd (hnone.symm.trans hfile).symm (Option.some_ne_none _)
          have hblockedUp : t.blocked path.dropLast = true := by
            refine blocked_iff.2 ⟨above, bytes, ?_, hfile⟩
            rcases List.eq_nil_or_concat' path with rfl | ⟨up, name, rfl⟩
            · exact absurd (List.prefix_nil.1 habove) hne
            · rw [List.dropLast_concat]
              exact (List.prefix_concat_iff.1 habove).resolve_left hne
          rw [not_blocked_of_dir hup] at hblockedUp
          cases hblockedUp
        rw [dif_pos hnone, dif_neg hup, hmissing] at hmkdir
        refine ⟨.enotdir, ?_⟩
        rw [makeDirs, hmkdir]
        simp only [hstat, if_false]
      · rw [dif_neg hnone] at hmkdir
        refine ⟨.eexist, ?_⟩
        rw [makeDirs, hmkdir]
        simp only [hstat, if_false]

/-- A directory is made with all that is missing above it, or nothing is. -/
theorem makeDirs_cases (h : t.LinkFree path) :
    (tooLong path = false ∧ t.blocked path = false ∧
      ∃ t' made, t.makeDirs path = (.ok (), t', made) ∧ Made t path t' made) ∨
    ((tooLong path = true ∨ t.blocked path = true) ∧
      ∃ errno, t.makeDirs path = (.error errno, t, [])) := by
  by_cases hbad : tooLong path = true ∨ t.blocked path = true
  · exact .inr ⟨hbad, makeDirs_error h hbad⟩
  · rw [not_or, Bool.not_eq_true, Bool.not_eq_true] at hbad
    exact .inl ⟨hbad.1, hbad.2, makeDirs_ok h hbad.1 hbad.2⟩

end MakeDirs

/-! ## The bare tree -/

/-- The root directory alone. -/
def bare : FileTree where
  entries := ⟨[([], .dir)], List.nodup_singleton []⟩
  root := rfl
  parents := by
    intro up name entry h
    have hne : ¬([] : Place) = up ++ [name] := fun heq => by simp at heq
    simp [Table.find?, hne] at h

theorem find?_bare {place : Place} (hne : place ≠ []) : bare.find? place = none := by
  simp [Table.find?, bare, hne.symm]

theorem linkFree_bare {place : Place} (hdot : "." ∉ place) (hdots : ".." ∉ place) :
    bare.LinkFree place where
  link := by
    intro above _
    by_cases hne : above = []
    · rw [hne]
      exact link?_nil bare
    · rw [link?, find?_bare hne]
  dots := ⟨hdot, hdots⟩

end FileTree

end AiStudio.Data
