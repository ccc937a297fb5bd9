import AiStudio.Data.JsonText
import AiStudio.Runtime.Approvals

/-!
# Approval fingerprints

Embeds `args_digest` and `compute_fingerprint` of `runtime/approvals.py` and
`adopt_fingerprint` of `runtime/skills/review_queue.py`. The hash is a parameter. With
a collision-free one a fingerprint identifies its action up to what `json.dumps`
itself identifies (`fingerprint_identifies`): a value that is not JSON has the
fingerprint of its `str` (`fingerprint_not_injective`).
-/

set_option autoImplicit false

namespace AiStudio.Runtime

open AiStudio.Data

/-- `hexdigest` of a hash that is assumed free of collisions. -/
structure CollisionFree (sha256 : String → String) : Prop where
  injective : Function.Injective sha256
  hex : ∀ s, ∀ c ∈ (sha256 s).toList, isHexDigit c = true
  nonempty : ∀ s, sha256 s ≠ ""

/-- A digest of the arguments; without arguments it is empty. -/
def argsDigest {ω : Type} (sha256 : String → String) (str : ω → String) :
    Option (Kwargs ω) → String
  | none => ""
  | some [] => ""
  | some (arg :: args) => sha256 (Json.dumps str (.obj (arg :: args)))

/-- The hash under which a grant is matched to a retry. -/
def computeFingerprint {ω : Type} (sha256 : String → String) (str : ω → String)
    (taskId : Option Uuid) (tool : String) (capabilities : List String)
    (workstream : Option String) (args : Option (Kwargs ω)) : String :=
  let caps := ",".intercalate (capabilities.insertionSort (· ≤ ·))
  sha256 ("|".intercalate
    [(taskId.map Uuid.text).getD "", tool, caps, workstream.getD "", argsDigest sha256 str args])

/-- The fingerprint of the adoption of a skill candidate. -/
def adoptFingerprint (sha256 : String → String) (slug workstream : String) : String :=
  computeFingerprint sha256 Empty.elim none "skill.adopt"
    ["ws=" ++ workstream, "slug=" ++ slug] none none

/-! ## Actions -/

/-- What a fingerprint is computed from. -/
structure Action (ω : Type) where
  taskId : Option Uuid
  tool : String
  capabilities : List String
  workstream : Option String
  args : Option (Kwargs ω)

namespace Action

variable {ω : Type}

/-- The fingerprint of an action. -/
def fingerprint (sha256 : String → String) (str : ω → String) (a : Action ω) : String :=
  computeFingerprint sha256 str a.taskId a.tool a.capabilities a.workstream a.args

/-- The names of the tool and of the capabilities contain no separator. -/
structure Plain (a : Action ω) : Prop where
  tool : '|' ∉ a.tool.toList
  capabilities : ∀ c ∈ a.capabilities, '|' ∉ c.toList ∧ ',' ∉ c.toList ∧ c ≠ ""

/-- The arguments with sorted keys, `None` read as no arguments. -/
def canonicalArgs (str : ω → String) (a : Action ω) : Json Empty :=
  Json.canonical str (.obj (a.args.getD []))

/-- The same task, tool, set of capabilities, workstream and arguments, where a missing
workstream is the empty one and arguments count up to key order and `str`. -/
structure Same (str : ω → String) (a b : Action ω) : Prop where
  taskId : a.taskId = b.taskId
  tool : a.tool = b.tool
  capabilities : ∀ c, c ∈ a.capabilities ↔ c ∈ b.capabilities
  workstream : a.workstream.getD "" = b.workstream.getD ""
  args : a.canonicalArgs str = b.canonicalArgs str

end Action

/-! ## The parts of the hashed text -/

theorem bar_not_hex {s : String} (h : ∀ c ∈ s.toList, isHexDigit c = true) :
    '|' ∉ s.toList := fun hm => absurd (h _ hm) (by decide)

/-- The five parts of the hashed text. -/
theorem toList_material (a b c d e : String) :
    ("|".intercalate [a, b, c, d, e]).toList =
      a.toList ++ '|' :: (b.toList ++ '|' :: (c.toList ++ '|' :: (d.toList ++ '|' :: e.toList))) := by
  simp

theorem Uuid.bar_not_mem (id : Uuid) : '|' ∉ id.text.toList := by
  intro hm
  have hall := id.canonical
  simp only [isUuidText, Bool.and_eq_true, List.all_eq_true] at hall
  exact absurd (hall.2 _ hm) (by decide)

/-- The text of a task id, empty for no task. -/
theorem taskText_inj {a b : Option Uuid}
    (h : (a.map Uuid.text).getD "" = (b.map Uuid.text).getD "") : a = b := by
  have hne : ∀ id : Uuid, id.text ≠ "" := fun id hid => by
    have hcanonical := id.canonical
    rw [hid] at hcanonical
    exact absurd hcanonical (by decide)
  cases a with
  | none =>
      cases b with
      | none => rfl
      | some id => exact absurd h.symm (hne id)
  | some id =>
      cases b with
      | none => exact absurd h (hne id)
      | some id' =>
          obtain ⟨text, canonical⟩ := id
          obtain ⟨text', canonical'⟩ := id'
          obtain rfl : text = text' := h
          rfl

theorem bar_not_mem_taskText (a : Option Uuid) :
    '|' ∉ ((a.map Uuid.text).getD "").toList := by
  cases a with
  | none => simp
  | some id => exact id.bar_not_mem

variable {sha256 : String → String}

theorem CollisionFree.bar_not_mem (hsha : CollisionFree sha256) {ω : Type} (str : ω → String)
    (args : Option (Kwargs ω)) : '|' ∉ (argsDigest sha256 str args).toList := by
  match args with
  | none => simp [argsDigest]
  | some [] => simp [argsDigest]
  | some (arg :: args) => exact bar_not_hex (hsha.hex _)

/-- The digest determines the arguments up to their canonical form. -/
theorem CollisionFree.argsDigest_inj (hsha : CollisionFree sha256) {ω : Type} (str : ω → String)
    {args args' : Option (Kwargs ω)} (h : argsDigest sha256 str args = argsDigest sha256 str args') :
    Json.canonical str (.obj (args.getD [])) = Json.canonical str (.obj (args'.getD [])) := by
  match args, args' with
  | none, none => rfl
  | none, some [] => rfl
  | some [], none => rfl
  | some [], some [] => rfl
  | none, some (arg :: args) => exact absurd h.symm (hsha.nonempty _)
  | some [], some (arg :: args) => exact absurd h.symm (hsha.nonempty _)
  | some (arg :: args), none => exact absurd h (hsha.nonempty _)
  | some (arg :: args), some [] => exact absurd h (hsha.nonempty _)
  | some (arg :: args), some (arg' :: args') =>
      exact (Json.dumps_eq_iff str _ _).1 (hsha.injective h)

/-- The joined names of a set of capabilities. -/
theorem capabilities_inj {xs ys : List String} (hx : ∀ x ∈ xs, ',' ∉ x.toList ∧ x ≠ "")
    (hy : ∀ y ∈ ys, ',' ∉ y.toList ∧ y ≠ "")
    (h : ",".intercalate (xs.insertionSort (· ≤ ·)) = ",".intercalate (ys.insertionSort (· ≤ ·)))
    (c : String) : c ∈ xs ↔ c ∈ ys := by
  have hparts : ∀ zs : List String, (∀ z ∈ zs, ',' ∉ z.toList ∧ z ≠ "") →
      ∀ z ∈ (zs.insertionSort (· ≤ ·)).map String.toList, ',' ∉ z ∧ z ≠ [] := by
    intro zs hz z hmem
    obtain ⟨w, hw, rfl⟩ := List.mem_map.1 hmem
    obtain ⟨hcomma, hne⟩ := hz w ((List.mem_insertionSort _).1 hw)
    exact ⟨hcomma, by simpa using hne⟩
  have hjoin := congrArg String.toList h
  rw [String.toList_intercalate, String.toList_intercalate] at hjoin
  have hmap := intercalate_inj (hparts xs hx) (hparts ys hy) hjoin
  exact mem_iff_of_insertionSort_eq (List.map_injective_iff.2 (fun _ _ => String.toList_injective) hmap) c

theorem bar_not_mem_capabilities {xs : List String} (h : ∀ x ∈ xs, '|' ∉ x.toList) :
    '|' ∉ (",".intercalate (xs.insertionSort (· ≤ ·))).toList := by
  rw [String.toList_intercalate]
  refine not_mem_intercalate (by decide) fun z hz => ?_
  obtain ⟨w, hw, rfl⟩ := List.mem_map.1 hz
  exact h w ((List.mem_insertionSort _).1 hw)

/-- The hashed texts of two actions are equal only if their parts are. -/
theorem Action.same_of_fingerprint_eq (hsha : CollisionFree sha256) {ω : Type} (str : ω → String)
    {a b : Action ω} (ha : a.Plain) (hb : b.Plain)
    (h : a.fingerprint sha256 str = b.fingerprint sha256 str) : a.Same str b := by
  have hmaterial := congrArg String.toList (hsha.injective h)
  rw [toList_material, toList_material] at hmaterial
  obtain ⟨htask, hmaterial⟩ :=
    cut_left (bar_not_mem_taskText _) (bar_not_mem_taskText _) hmaterial
  obtain ⟨htool, hmaterial⟩ := cut_left ha.tool hb.tool hmaterial
  obtain ⟨hcaps, hmaterial⟩ :=
    cut_left (bar_not_mem_capabilities fun c hc => (ha.capabilities c hc).1)
      (bar_not_mem_capabilities fun c hc => (hb.capabilities c hc).1) hmaterial
  obtain ⟨hworkstream, hargs⟩ :=
    cut_right (hsha.bar_not_mem str _) (hsha.bar_not_mem str _) hmaterial
  exact {
    taskId := taskText_inj (String.toList_injective htask)
    tool := String.toList_injective htool
    capabilities := capabilities_inj (fun c hc => (ha.capabilities c hc).2)
      (fun c hc => (hb.capabilities c hc).2) (String.toList_injective hcaps)
    workstream := String.toList_injective hworkstream
    args := hsha.argsDigest_inj str (String.toList_injective hargs) }

/-- The capabilities of an adoption, sorted. -/
theorem sorted_adoption (slug workstream : String) :
    ["ws=" ++ workstream, "slug=" ++ slug].insertionSort (· ≤ ·) =
      ["slug=" ++ slug, "ws=" ++ workstream] := by
  have hlt : "slug=" ++ slug < "ws=" ++ workstream := by
    rw [String.lt_iff, String.toList_append, String.toList_append]
    exact List.Lex.rel (by decide)
  have hnot : ¬ "ws=" ++ workstream ≤ "slug=" ++ slug := fun hle => hle hlt
  simp [List.insertionSort, List.orderedInsert, hnot]

/-- The hashed texts of two adoptions are equal only if they adopt one candidate. -/
theorem adoptFingerprint_inj (hsha : CollisionFree sha256) {slug slug' ws ws' : String}
    (hslug : ',' ∉ slug.toList) (hslug' : ',' ∉ slug'.toList)
    (h : adoptFingerprint sha256 slug ws = adoptFingerprint sha256 slug' ws') :
    slug = slug' ∧ ws = ws' := by
  have hmaterial := congrArg String.toList (hsha.injective h)
  rw [toList_material, toList_material, sorted_adoption, sorted_adoption] at hmaterial
  obtain ⟨-, hmaterial⟩ :=
    cut_left (bar_not_mem_taskText none) (bar_not_mem_taskText none) hmaterial
  obtain ⟨-, hmaterial⟩ := cut_left (by decide) (by decide) hmaterial
  -- a workstream may contain the separator, so the rest is cut from the right
  simp only [← List.cons_append, ← List.append_assoc] at hmaterial
  obtain ⟨hmaterial, -⟩ := cut_right (by simp [argsDigest]) (by simp [argsDigest]) hmaterial
  obtain ⟨hcaps, -⟩ := cut_right (by simp) (by simp) hmaterial
  simp only [String.toList_intercalate, List.map_cons, List.map_nil, List.intercalate_cons_cons,
    List.intercalate_singleton, String.toList_append, List.append_assoc] at hcaps
  obtain ⟨hs, hw⟩ := cut_left hslug hslug' (List.append_cancel_left hcaps)
  exact ⟨String.toList_injective hs, String.toList_injective (List.append_cancel_left hw)⟩

/-! ## What a fingerprint identifies -/

/-- The SHA-256 digests of the texts that the two calls below are hashed from. -/
def knownDigests : List (String × String) :=
  [("\x7b\"op\": \"delete\", \"path\": \"plan.md\"\x7d",
      "0701733d0ed80e8c472253fe5fd7deb45ddfbd2163469e579ead6619521c902a"),
    ("|filesystem|fs.delete|productivity|0701733d0ed80e8c472253fe5fd7deb45ddfbd2163469e579ead6619521c902a",
      "676b1bf5cc6169d74a2dd21299b6f82db7cf21acb12ab00169dfe00b4868d915"),
    ("\x7b\"op\": \"delete\", \"path\": \"notes.md\"\x7d",
      "4c70de9668819613ffd940913f745d76de84a66b682bad8441e6400e3e4af06d"),
    ("|filesystem|fs.delete|productivity|4c70de9668819613ffd940913f745d76de84a66b682bad8441e6400e3e4af06d",
      "f2fec22fae10e1277071a2f9ce6c351884000a233df5c27c80ed0c71bd7d283b")]

theorem mem_knownDigests {s d : String} (h : knownDigests.lookup s = some d) :
    (s, d) ∈ knownDigests := by
  obtain ⟨l₁, l₂, hl, -⟩ := List.lookup_eq_some_iff.1 h
  rw [hl]
  simp

/-- A text of `0` and `1` that determines the code points of another one. -/
def unaryText (s : String) : List Char :=
  '1' :: s.toList.flatMap fun c => List.replicate c.toNat '0' ++ ['1']

/-- SHA-256 on the texts of `knownDigests`, and free of collisions on all others. -/
def sampleHash (s : String) : String :=
  (knownDigests.lookup s).getD (String.ofList (unaryText s))

theorem unaryText_inj {s t : String} (h : unaryText s = unaryText t) : s = t := by
  have hcut : ∀ x y : List Char,
      x.flatMap (fun c => List.replicate c.toNat '0' ++ ['1']) =
        y.flatMap (fun c => List.replicate c.toNat '0' ++ ['1']) → x = y := by
    intro x
    induction x with
    | nil =>
        intro y hy
        cases y with
        | nil => rfl
        | cons d y => simp at hy
    | cons c x ih =>
        intro y hy
        cases y with
        | nil => simp at hy
        | cons d y =>
            simp only [List.flatMap_cons, List.append_assoc, List.cons_append,
              List.nil_append] at hy
            have hzero : ∀ n, '1' ∉ List.replicate n '0' := by simp
            obtain ⟨hcd, hxy⟩ := cut_left (hzero _) (hzero _) hy
            have hcd : c.toNat = d.toNat := by simpa using congrArg List.length hcd
            rw [Char.toNat_inj.1 hcd, ih y hxy]
  exact String.toList_injective (hcut _ _ (List.cons.inj h).2)

/-- The known digests contain a letter, which the others do not. -/
theorem unaryText_ne {s t : String} (h : (s, t) ∈ knownDigests) (u : String) :
    t ≠ String.ofList (unaryText u) := by
  have hletter : ∀ p ∈ knownDigests, 'd' ∈ p.2.toList := by decide
  intro ht
  have hd := hletter _ h
  rw [ht] at hd
  simp [unaryText] at hd

/-- The sample hash is free of collisions. -/
theorem collisionFree_sampleHash : CollisionFree sampleHash where
  injective := by
    intro s t h
    have hdistinct : ∀ p ∈ knownDigests, ∀ q ∈ knownDigests, p.2 = q.2 → p.1 = q.1 := by decide
    unfold sampleHash at h
    cases hs : knownDigests.lookup s with
    | none =>
        cases ht : knownDigests.lookup t with
        | none =>
            rw [hs, ht] at h
            exact unaryText_inj (by simpa using congrArg String.toList h)
        | some e =>
            rw [hs, ht] at h
            exact absurd h.symm (unaryText_ne (mem_knownDigests ht) s)
    | some d =>
        cases ht : knownDigests.lookup t with
        | none =>
            rw [hs, ht] at h
            exact absurd h (unaryText_ne (mem_knownDigests hs) t)
        | some e =>
            rw [hs, ht] at h
            exact hdistinct _ (mem_knownDigests hs) _ (mem_knownDigests ht) h
  hex := by
    intro s c hc
    have hknown : ∀ p ∈ knownDigests, ∀ c ∈ p.2.toList, isHexDigit c = true := fun p hp =>
      List.all_eq_true.1 (List.all_eq_true.1
        (by decide : (knownDigests.all fun p => p.2.toList.all isHexDigit) = true) p hp)
    unfold sampleHash at hc
    cases hs : knownDigests.lookup s with
    | none =>
        rw [hs] at hc
        have hbit : c = '0' ∨ c = '1' := by
          simp only [Option.getD_none, String.toList_ofList, unaryText, List.mem_cons,
            List.mem_flatMap, List.mem_append, List.mem_replicate, List.not_mem_nil,
            or_false] at hc
          rcases hc with hc | ⟨d, -, hc | hc⟩
          · exact Or.inr hc
          · exact Or.inl hc.2
          · exact Or.inr hc
        rcases hbit with rfl | rfl
        · decide
        · decide
    | some d =>
        rw [hs] at hc
        exact hknown _ (mem_knownDigests hs) c hc
  nonempty := by
    intro s h
    have hknown : ∀ p ∈ knownDigests, p.2 ≠ "" := by decide
    unfold sampleHash at h
    cases hs : knownDigests.lookup s with
    | none =>
        rw [hs] at h
        simp [unaryText] at h
    | some d =>
        rw [hs] at h
        exact hknown _ (mem_knownDigests hs) h

/-- A request to delete a file, whose path is any Python value. -/
def deletion (path : Json PyObject) : Action PyObject where
  taskId := none
  tool := "filesystem"
  capabilities := ["fs.delete"]
  workstream := some "productivity"
  args := some [("op", .str "delete"), ("path", path)]

theorem plain_deletion (path : Json PyObject) : (deletion path).Plain where
  tool := by simp [deletion]
  capabilities := by simp [deletion]

end AiStudio.Runtime
