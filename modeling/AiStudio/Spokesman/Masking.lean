import Mathlib.Logic.Relation
import AiStudio.Spokesman.Verdicts

/-!
# A contradiction cannot be masked

What the stores contradict stays rejected, whatever is put beside it: further references, other
references in another order, further assertions in the same reference. `Contradicts` says in
terms of the stores when a reference is contradicted, and `dressed_rejected` that no dressing of
the claim helps.
-/

set_option autoImplicit false

namespace AiStudio.Spokesman

open AiStudio.Data AiStudio.Runtime

/-! ## Dressing a claim -/

/-- What a reference expects, assertion by assertion: those to a row are separated by commas,
and of the other kinds there is at most one. -/
def EvidenceRef.segments (ref : EvidenceRef) : List String :=
  match ref.kind with
  | .dbRow => if ref.expected.getD "" = "" then [] else splitCommas (ref.expected.getD "")
  | _ => ref.expected.toList

/-- The same pointer, with further assertions among those that were there. -/
structure EvidenceRef.Extends (ref' ref : EvidenceRef) : Prop where
  kind : ref'.kind = ref.kind
  locator : ref'.locator = ref.locator
  segments : ∀ segment ∈ ref.segments, segment ∈ ref'.segments

/-- One change to the evidence of a claim. -/
inductive Dressing : List EvidenceRef → List EvidenceRef → Prop where
  | permute {refs refs' : List EvidenceRef} (perm : refs.Perm refs') : Dressing refs refs'
  | add (refs more : List EvidenceRef) : Dressing refs (refs ++ more)
  | extend (pre post : List EvidenceRef) {ref ref' : EvidenceRef} (further : ref'.Extends ref) :
      Dressing (pre ++ ref :: post) (pre ++ ref' :: post)

namespace SourceOfTruth

variable (env : SourceOfTruth)

/-- The stores contradict the reference: what its locator finds differs from something it
expects. -/
inductive Contradicts (ref : EvidenceRef) : Prop where
  | event (row : Row) (e : String) (kind : ref.kind = .event)
      (found : env.locateEvent ref.locator = .ok (some row)) (expected : ref.expected = some e)
      (differs : row.text "type" ≠ e)
  | task (row : Row) (e : String) (kind : ref.kind = .task)
      (found : env.locateTask ref.locator = .ok (some row)) (expected : ref.expected = some e)
      (known : strip e ∈ taskStatuses) (differs : row.text "status" ≠ strip e)
  | dbRow (row : Row) (segment col want : String) (got : Cell) (kind : ref.kind = .dbRow)
      (found : env.locateRow ref.locator = .ok (.ok row)) (expected : segment ∈ ref.segments)
      (parsed : parseSegment segment = .ok (col, want)) (column : row.lookup col = some got)
      (differs : got.str ≠ want)
  | metric (value : Nat) (e : String) (count want : Int) (kind : ref.kind = .metric)
      (reached : env.reachable = true) (found : env.metric? (strip ref.locator) = some value)
      (expected : ref.expected = some e) (actual : intOf (toString value) = .ok count)
      (parsed : intOf e = .ok want) (differs : count ≠ want)
  | file (content : List UInt8) (e : String) (kind : ref.kind = .file)
      (committed : env.autocommit = true ∨ env.reachable = true)
      (found : env.file (filePath ref.locator) = some (.ok content))
      (expected : ref.expected = some e) (digest : isSha256Hex e = true)
      (differs : env.sha256 content ≠ String.ofList ((strip e).toList.map Char.toLower))

end SourceOfTruth

/-! ## The resolvers -/

/-- A reference to anything but a row has one assertion at most. -/
theorem segments_of_ne {ref : EvidenceRef} (h : ref.kind ≠ .dbRow) :
    ref.segments = ref.expected.toList := by
  unfold EvidenceRef.segments
  split
  · exact absurd ‹_› h
  · rfl

/-- The fields of a reference to a row are its well-formed segments. -/
theorem mem_fields_iff {ref : EvidenceRef} (hkind : ref.kind = .dbRow) {field : String × String} :
    field ∈ (parseExpectedFields ref.expected).1 ↔
      ∃ segment ∈ ref.segments, parseSegment segment = .ok field := by
  have hok : ∀ segment, (parseSegment segment).toOption = some field ↔
      parseSegment segment = .ok field := by
    intro segment
    cases parseSegment segment with
    | error note => simp [Except.toOption]
    | ok parsed => simp [Except.toOption]
  simp only [parseExpectedFields, EvidenceRef.segments, hkind, List.mem_filterMap, hok]

namespace SourceOfTruth

variable {env : SourceOfTruth} {ref ref' : EvidenceRef}

theorem resolveMetric_differs_iff :
    (∃ res, env.resolveMetric ref = .ok res ∧ res.outcome = .contradicted) ↔
      env.reachable = true ∧ ∃ value e count want, env.metric? (strip ref.locator) = some value ∧
        ref.expected = some e ∧ intOf (toString value) = .ok count ∧ intOf e = .ok want ∧
        count ≠ want := by
  unfold resolveMetric
  cases hvalue : env.metric? (strip ref.locator) with
  | none => simp [EvidenceRef.resolution]
  | some value =>
      cases hreach : env.reachable with
      | false => simp [query, hreach, bind, Except.bind]
      | true =>
          cases hexp : ref.expected with
          | none =>
              simp [query, hreach, bind, Except.bind, pure, Except.pure, EvidenceRef.resolution]
          | some e =>
              cases hwant : intOf e with
              | error name =>
                  simp [query, hreach, bind, Except.bind, pure, Except.pure, hwant,
                    EvidenceRef.resolution]
              | ok want =>
                  cases hcount : intOf value.repr with
                  | error name =>
                      simp [query, hreach, bind, Except.bind, hwant, hcount]
                  | ok count =>
                      by_cases hne : count = want <;>
                        simp [query, hreach, bind, Except.bind, pure, Except.pure, hwant, hcount,
                          hne, EvidenceRef.resolution]

theorem resolveFile_differs_iff :
    (∃ res, env.resolveFile ref = .ok res ∧ res.outcome = .contradicted) ↔
      ∃ content e, env.file (filePath ref.locator) = some (.ok content) ∧ ref.expected = some e ∧
        isSha256Hex e = true ∧
        env.sha256 content ≠ String.ofList ((strip e).toList.map Char.toLower) := by
  unfold resolveFile
  cases hfile : env.file (filePath ref.locator) with
  | none => simp [EvidenceRef.resolution]
  | some read =>
      cases hexp : ref.expected with
      | none => simp [EvidenceRef.resolution]
      | some e =>
          cases hhex : isSha256Hex e with
          | false => simp [hhex, EvidenceRef.resolution]
          | true =>
              cases read with
              | error name => simp [hhex, bind, Except.bind]
              | ok content =>
                  by_cases hne :
                      env.sha256 content = String.ofList ((strip e).toList.map Char.toLower) <;>
                    simp [hhex, bind, Except.bind, pure, Except.pure, hne, EvidenceRef.resolution]

/-- **The gate contradicts a reference exactly if the stores do.** -/
theorem resolveRef_contradicted_iff :
    (env.resolveRef ref).outcome = .contradicted ↔ env.Contradicts ref := by
  constructor
  · intro h
    obtain ⟨res, hres, hcontra⟩ := resolver_of_contradicted h
    cases hkind : ref.kind with
    | event =>
        obtain ⟨row, e, hloc, hexp, hne⟩ :=
          resolveEvent_contradicted.1 ⟨res, by simpa only [resolver, hkind] using hres, hcontra⟩
        exact .event row e hkind hloc hexp hne
    | task =>
        obtain ⟨row, e, hloc, hexp, hknown, hne⟩ :=
          resolveTask_contradicted.1 ⟨res, by simpa only [resolver, hkind] using hres, hcontra⟩
        exact .task row e hkind hloc hexp hknown hne
    | dbRow =>
        obtain ⟨row, hloc, field, hfield, got, hgot, hne⟩ :=
          resolveDbRow_contradicted.1 ⟨res, by simpa only [resolver, hkind] using hres, hcontra⟩
        obtain ⟨segment, hsegment, hparsed⟩ := (mem_fields_iff hkind).1 hfield
        exact .dbRow row segment field.1 field.2 got hkind hloc hsegment hparsed hgot hne
    | metric =>
        obtain ⟨hreach, value, e, count, want, hvalue, hexp, hcount, hwant, hne⟩ :=
          resolveMetric_differs_iff.1 ⟨res, by simpa only [resolver, hkind] using hres, hcontra⟩
        exact .metric value e count want hkind hreach hvalue hexp hcount hwant hne
    | file =>
        obtain ⟨content, e, hfile, hexp, hhex, hne⟩ :=
          resolveFile_differs_iff.1 ⟨res, by simpa only [resolver, hkind] using hres, hcontra⟩
        exact .file content e hkind (committed_of_contradicted h) hfile hexp hhex hne
    | artifact =>
        simp only [resolver, hkind, resolveArtifact, Except.ok.injEq] at hres
        subst hres
        cases hcontra
  · intro h
    cases h with
    | event row e kind found expected differs =>
        obtain ⟨res, hres, hcontra⟩ :=
          resolveEvent_contradicted.2 ⟨row, e, found, expected, differs⟩
        rwa [resolveRef_eq (by simpa only [resolver, kind] using hres)
          (found_of_locateEvent found).1]
    | task row e kind found expected known differs =>
        obtain ⟨res, hres, hcontra⟩ :=
          resolveTask_contradicted.2 ⟨row, e, found, expected, known, differs⟩
        rwa [resolveRef_eq (by simpa only [resolver, kind] using hres)
          (found_of_locateTask found).1]
    | dbRow row segment col want got kind found expected parsed column differs =>
        obtain ⟨res, hres, hcontra⟩ := resolveDbRow_contradicted.2
          ⟨row, found, (col, want), (mem_fields_iff kind).2 ⟨segment, expected, parsed⟩, got,
            column, differs⟩
        rwa [resolveRef_eq (by simpa only [resolver, kind] using hres)
          (found_of_locateRow found).1]
    | metric value e count want kind reached found expected actual parsed differs =>
        obtain ⟨res, hres, hcontra⟩ := resolveMetric_differs_iff.2
          ⟨reached, value, e, count, want, found, expected, actual, parsed, differs⟩
        rwa [resolveRef_eq (by simpa only [resolver, kind] using hres) reached]
    | file content e kind committed found expected digest differs =>
        obtain ⟨res, hres, hcontra⟩ :=
          resolveFile_differs_iff.2 ⟨content, e, found, expected, digest, differs⟩
        rwa [resolveRef_of_committed (by simpa only [resolver, kind] using hres) committed]

/-! ## Masking -/

/-- Further assertions in a reference do not undo what contradicts the others. -/
theorem Contradicts.extends (h : env.Contradicts ref) (hext : ref'.Extends ref) :
    env.Contradicts ref' := by
  -- a reference to anything but a row has one assertion, and keeps it
  have hexpected : ref.kind ≠ .dbRow → ∀ e, ref.expected = some e → ref'.expected = some e := by
    intro hkind e hexp
    have hmem := hext.segments e
    rw [segments_of_ne hkind, segments_of_ne (hext.kind ▸ hkind), hexp] at hmem
    exact Option.mem_toList.1 (hmem (List.mem_singleton_self e))
  cases h with
  | event row e kind found expected differs =>
      exact .event row e (hext.kind.trans kind) ((congrArg env.locateEvent hext.locator).trans found)
        (hexpected (by simp [kind]) e expected) differs
  | task row e kind found expected known differs =>
      exact .task row e (hext.kind.trans kind) ((congrArg env.locateTask hext.locator).trans found)
        (hexpected (by simp [kind]) e expected) known differs
  | dbRow row segment col want got kind found expected parsed column differs =>
      exact .dbRow row segment col want got (hext.kind.trans kind) ((congrArg env.locateRow hext.locator).trans found)
        (hext.segments segment expected) parsed column differs
  | metric value e count want kind reached found expected actual parsed differs =>
      exact .metric value e count want (hext.kind.trans kind) reached (hext.locator ▸ found)
        (hexpected (by simp [kind]) e expected) actual parsed differs
  | file content e kind committed found expected digest differs =>
      exact .file content e (hext.kind.trans kind) committed (hext.locator ▸ found)
        (hexpected (by simp [kind]) e expected) digest differs

/-- A dressing keeps a contradicted reference, or one that extends it. -/
theorem Contradicts.dressing {refs refs' : List EvidenceRef} (hdress : Dressing refs refs')
    (h : ∃ ref ∈ refs, env.Contradicts ref) : ∃ ref ∈ refs', env.Contradicts ref := by
  obtain ⟨bad, hmem, hbad⟩ := h
  cases hdress with
  | permute perm => exact ⟨bad, perm.mem_iff.1 hmem, hbad⟩
  | add more => exact ⟨bad, List.mem_append_left _ hmem, hbad⟩
  | extend pre post further =>
      rename_i ref ref'
      rcases List.mem_append.1 hmem with hpre | hrest
      · exact ⟨bad, List.mem_append_left _ hpre, hbad⟩
      · rcases List.mem_cons.1 hrest with rfl | hpost
        · exact ⟨ref', by simp, hbad.extends further⟩
        · exact ⟨bad, by simp [hpost], hbad⟩

theorem Contradicts.dressings {refs refs' : List EvidenceRef}
    (hdress : Relation.ReflTransGen Dressing refs refs') (h : ∃ ref ∈ refs, env.Contradicts ref) :
    ∃ ref ∈ refs', env.Contradicts ref := by
  induction hdress with
  | refl => exact h
  | tail _ hlast ih => exact Contradicts.dressing hlast ih

/-- **A contradiction cannot be masked**: a claim with a reference that the stores contradict is
rejected, and so is every claim that comes of it by changing the order of the references, adding
references, and adding to what a reference expects, any number of times. -/
theorem dressed_rejected (claim claim' : Claim) (h : ∃ ref ∈ claim.evidence, env.Contradicts ref)
    (hdress : Relation.ReflTransGen Dressing claim.evidence claim'.evidence) :
    (env.verifyClaim claim').status = .rejected := by
  obtain ⟨ref, hmem, hcontra⟩ := Contradicts.dressings hdress h
  exact verifyClaim_rejected.2 ⟨ref, hmem, resolveRef_contradicted_iff.2 hcontra⟩

end SourceOfTruth

theorem located_approval : isBlank approvalLocator = false := by decide

theorem located_first : isBlank "seq:1" = false := by decide

/-- A reference to the approval with a false tier, and a column that the table does not have. -/
def veiled : EvidenceRef where
  kind := .dbRow
  locator := approvalLocator
  expected := some "phantom=1,tier=go"
  located := located_approval

/-- A reference that holds. -/
def holding : EvidenceRef where
  kind := .event
  locator := "seq:1"
  expected := some "task.created"
  located := located_first

/-- A claim with a false tier, behind a reference that holds and beside a phantom column. -/
def dressed : Claim where
  statement := "the approval is at the lowest tier"
  evidence := [holding, veiled]
  stated := by decide
  backed := fun _ => List.cons_ne_nil _ _

/-- The false tier is found out from behind all that. -/
theorem rejected_dressed : (sampleTruth.verifyClaim dressed).status = .rejected := by
  refine SourceOfTruth.dressed_rejected (citing [("tier", "go")]) dressed
    ⟨_, List.mem_cons_self, .dbRow approvalRow "tier=go" "tier" "go" (.text "stop") rfl
      locateRow_approval ?_ ?_ rfl ?_⟩ ?_
  · decide
  · decide
  · decide
  · -- the reference is extended, then the event is added, then the two change places
    have hextend : Dressing (citing [("tier", "go")]).evidence [veiled] :=
      .extend [] [] ⟨rfl, rfl, List.forall_mem_iff_getElem.2 (by decide)⟩
    have hadd : Dressing [veiled] [veiled, holding] := .add [veiled] [holding]
    exact ((Relation.ReflTransGen.single hextend).tail hadd).tail (.permute (.swap _ _ _))

end AiStudio.Spokesman
