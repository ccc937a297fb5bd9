import Mathlib.Data.Fintype.Card
import Mathlib.Logic.Relation

/-!
# Depth-first search over dependencies

Two searches of one graph: `check` colours the nodes and raises when it meets a node that is
still open, `place` lists the nodes, prerequisites first. `check_ok` runs them side by side:
where the first raises nothing, the second lists every node after its prerequisites.
Both recurse on a bound for the depth; `cycle_of_check` says that the bound is never what makes
`check` raise.
-/

set_option autoImplicit false

namespace AiStudio.Data.DepthFirst

variable {α ε : Type} [DecidableEq α]

/-- The colours of a node: not seen, open, done. -/
inductive Color where
  | white
  | gray
  | black
  deriving DecidableEq, Repr

/-- Look at a prerequisite: an open one closes a cycle. -/
def checkDep (visit : (α → Color) → α → Except ε (α → Color)) (raise : α → ε) (colors : α → Color)
    (dep : α) : Except ε (α → Color) :=
  match colors dep with
  | .gray => .error (raise dep)
  | .white => visit colors dep
  | .black => .ok colors

/-- Visit a node at the end of a path; `fail` makes an exception of a path that runs into itself. -/
def check (deps : α → List α) (fail : List α → ε) :
    Nat → List α → (α → Color) → α → Except ε (α → Color)
  | 0, path, _, n => .error (fail (path ++ [n]))
  | depth + 1, path, colors, n => do
      let colors ← (deps n).foldlM
        (checkDep (check deps fail depth (path ++ [n])) fun dep => fail (path ++ [n, dep]))
        (Function.update colors n .gray)
      return Function.update colors n .black

/-- Look at a prerequisite: an open one is passed over. -/
def placeDep (visit : List α → α → List α) (stack placed : List α) (dep : α) : List α :=
  if dep ∈ stack then placed else visit placed dep

/-- List a node after its prerequisites, unless it is listed. -/
def place (deps : α → List α) : Nat → List α → List α → α → List α
  | 0, _, placed, _ => placed
  | depth + 1, stack, placed, n =>
      if n ∈ placed then placed
      else
        let placed := (deps n).foldl (placeDep (place deps depth (n :: stack)) (n :: stack)) placed
        if n ∈ placed then placed else placed ++ [n]

/-- A list without duplicates in which every node stands after its prerequisites. -/
inductive Topological (deps : α → List α) : List α → Prop where
  | nil : Topological deps []
  | snoc {placed : List α} {n : α} (h : Topological deps placed) (fresh : n ∉ placed)
      (met : ∀ dep ∈ deps n, dep ∈ placed) : Topological deps (placed ++ [n])

variable {deps : α → List α} {fail : List α → ε}

omit [DecidableEq α] in
theorem Topological.nodup {placed : List α} (h : Topological deps placed) : placed.Nodup := by
  induction h with
  | nil => exact List.nodup_nil
  | snoc _ fresh _ ih =>
      refine List.nodup_append.2 ⟨ih, List.nodup_singleton _, ?_⟩
      rintro x hx y hy rfl
      exact fresh (List.mem_singleton.1 hy ▸ hx)

omit [DecidableEq α] in
/-- The prerequisites of a listed node are listed before it. -/
theorem Topological.before {placed : List α} (h : Topological deps placed) {before after : List α}
    {n : α} (hsplit : placed = before ++ n :: after) : ∀ dep ∈ deps n, dep ∈ before := by
  induction h generalizing after with
  | nil => cases before <;> cases hsplit
  | snoc hplaced _ met ih =>
      rcases List.eq_nil_or_concat after with rfl | ⟨after, m, rfl⟩
      · obtain ⟨rfl, hlast⟩ := List.append_inj' hsplit rfl
        obtain rfl := List.head_eq_of_cons_eq hlast
        exact met
      · rw [List.concat_eq_append, ← List.cons_append, ← List.append_assoc] at hsplit
        exact ih (List.append_inj' hsplit rfl).1

omit [DecidableEq α] in
/-- What a listed node needs is listed. -/
theorem Topological.closed {placed : List α} (h : Topological deps placed) {n d : α}
    (hn : n ∈ placed) (hpath : Relation.TransGen (fun m d => d ∈ deps m) n d) : d ∈ placed := by
  have hstep : ∀ {m d}, m ∈ placed → d ∈ deps m → d ∈ placed := by
    intro m d hm hd
    obtain ⟨before, after, hsplit⟩ := List.append_of_mem hm
    rw [hsplit]
    exact List.mem_append_left _ (h.before hsplit d hd)
  induction hpath with
  | single hd => exact hstep hn hd
  | tail _ hd ih => exact hstep ih hd

omit [DecidableEq α] in
/-- **An order is of nodes on no cycle.** -/
theorem Topological.acyclic {placed : List α} (h : Topological deps placed) :
    ∀ n ∈ placed, ¬ Relation.TransGen (fun m d => d ∈ deps m) n n := by
  induction h with
  | nil => simp
  | snoc hplaced fresh met ih =>
      intro n hn hcycle
      rcases List.mem_append.1 hn with hn | hn
      · exact ih n hn hcycle
      · obtain rfl := List.mem_singleton.1 hn
        -- the first step of the cycle leads into the part before, which it cannot leave
        obtain ⟨d, hd, hback⟩ := Relation.TransGen.head'_iff.1 hcycle
        rcases Relation.reflTransGen_iff_eq_or_transGen.1 hback with rfl | hback
        · exact fresh (met _ hd)
        · exact fresh (hplaced.closed (met d hd) hback)

/-- The colours say what is open and what is listed. -/
structure Agrees (colors : α → Color) (stack placed : List α) : Prop where
  gray : ∀ m, colors m = .gray ↔ m ∈ stack
  black : ∀ m, colors m = .black ↔ m ∈ placed

/-- What a search that raises nothing has done: the list is longer, in order, and of nodes of the
graph. -/
structure Extends (deps : α → List α) (keys : List α) (colors : α → Color)
    (stack placed placed' : List α) : Prop where
  agrees : Agrees colors stack placed'
  topological : Topological deps placed'
  grows : placed ⊆ placed'
  keys : placed ⊆ keys → placed' ⊆ keys

/-- A new node is opened. -/
theorem Agrees.open {colors : α → Color} {stack placed : List α} {n : α}
    (h : Agrees colors stack placed) (hnew : n ∉ placed) :
    Agrees (Function.update colors n .gray) (n :: stack) placed := by
  refine ⟨fun m => ?_, fun m => ?_⟩
  · by_cases hm : m = n
    · simp [hm]
    · simp [hm, h.gray m]
  · by_cases hm : m = n
    · simp [hm, hnew]
    · simp [hm, h.black m]

/-- The open node is done. -/
theorem Agrees.close {colors : α → Color} {stack placed : List α} {n : α}
    (h : Agrees colors (n :: stack) placed) (hopen : n ∉ stack) :
    Agrees (Function.update colors n .black) stack (placed ++ [n]) := by
  refine ⟨fun m => ?_, fun m => ?_⟩
  · by_cases hm : m = n
    · simp [hm, hopen]
    · simp [hm, h.gray m]
  · by_cases hm : m = n
    · simp [hm]
    · simp [hm, h.black m]

theorem place_of_mem {depth : Nat} {stack placed : List α} {n : α} (h : n ∈ placed) :
    place deps depth stack placed n = placed := by
  cases depth with
  | zero => rfl
  | succ depth => rw [place, if_pos h]

/-- Two steps, of which the second lists what the first colours. -/
def InStep (deps : α → List α) (keys stack : List α) (fresh : (α → Color) → α → Prop)
    (step : (α → Color) → α → Except ε (α → Color)) (step' : List α → α → List α) : Prop :=
  ∀ colors colors' placed n, step colors n = .ok colors' → fresh colors n → n ∈ keys →
    Agrees colors stack placed → Topological deps placed →
    Extends deps keys colors' stack placed (step' placed n) ∧ n ∈ step' placed n

omit [DecidableEq α] in
theorem Extends.trans {keys stack placed placed₁ placed₂ : List α} {colors₁ colors₂ : α → Color}
    (h₁ : Extends deps keys colors₁ stack placed placed₁)
    (h₂ : Extends deps keys colors₂ stack placed₁ placed₂) :
    Extends deps keys colors₂ stack placed placed₂ :=
  ⟨h₂.agrees, h₂.topological, List.Subset.trans h₁.grows h₂.grows, fun h => h₂.keys (h₁.keys h)⟩

omit [DecidableEq α] in
/-- Steps in step stay in step over a list of nodes. -/
theorem InStep.fold {keys stack : List α} {step : (α → Color) → α → Except ε (α → Color)}
    {step' : List α → α → List α} (hstep : InStep deps keys stack (fun _ _ => True) step step')
    {ds : List α} (hds : ds ⊆ keys) {colors colors' : α → Color} {placed : List α}
    (h : ds.foldlM step colors = .ok colors') (hagrees : Agrees colors stack placed)
    (htopo : Topological deps placed) :
    Extends deps keys colors' stack placed (ds.foldl step' placed) ∧ ds ⊆ ds.foldl step' placed := by
  induction ds generalizing colors placed with
  | nil =>
      obtain rfl : colors = colors' := Except.ok.inj h
      exact ⟨⟨hagrees, htopo, List.Subset.refl _, id⟩, List.nil_subset _⟩
  | cons d ds ih =>
      rw [List.cons_subset] at hds
      rw [List.foldlM_cons] at h
      cases hd : step colors d with
      | error e => rw [hd] at h; cases h
      | ok colors₁ =>
          rw [hd] at h
          obtain ⟨hone, hmem⟩ := hstep _ _ _ _ hd trivial hds.1 hagrees htopo
          obtain ⟨hmore, hrest⟩ := ih hds.2 h hone.agrees hone.topological
          exact ⟨hone.trans hmore, List.cons_subset.2 ⟨hmore.grows hmem, hrest⟩⟩

omit [DecidableEq α] in
/-- A node that is listed already stays listed. -/
theorem Extends.refl {keys stack placed : List α} {colors : α → Color}
    (hagrees : Agrees colors stack placed) (htopo : Topological deps placed) :
    Extends deps keys colors stack placed placed :=
  ⟨hagrees, htopo, List.Subset.refl _, id⟩

/-- Looking at a prerequisite is in step when a visit is. -/
theorem InStep.dep {keys stack : List α} {visit : (α → Color) → α → Except ε (α → Color)}
    {visit' : List α → α → List α} {raise : α → ε}
    (hvisit : InStep deps keys stack (fun colors n => colors n = .white) visit visit')
    (hlisted : ∀ placed n, n ∈ placed → visit' placed n = placed) :
    InStep deps keys stack (fun _ _ => True) (checkDep visit raise) (placeDep visit' stack) := by
  intro colors colors' placed d h _ hkey hagrees htopo
  cases hcolor : colors d with
  | gray => rw [checkDep, hcolor] at h; cases h
  | white =>
      have hopen : d ∉ stack := fun hmem => by
        rw [(hagrees.gray d).2 hmem] at hcolor
        cases hcolor
      rw [checkDep, hcolor] at h
      rw [placeDep, if_neg hopen]
      exact hvisit _ _ _ _ h hcolor hkey hagrees htopo
  | black =>
      have hopen : d ∉ stack := fun hmem => by
        rw [(hagrees.gray d).2 hmem] at hcolor
        cases hcolor
      have hmem := (hagrees.black d).1 hcolor
      rw [checkDep, hcolor] at h
      rw [placeDep, if_neg hopen, hlisted _ _ hmem, ← Except.ok.inj h]
      exact ⟨.refl hagrees htopo, hmem⟩

/-- **A visit that raises nothing lists its node after its prerequisites.** -/
theorem inStep_check {keys : List α} (hkeys : ∀ m ∈ keys, deps m ⊆ keys) (depth : Nat)
    (path stack : List α) :
    InStep deps keys stack (fun colors n => colors n = .white) (check deps fail depth path)
      (place deps depth stack) := by
  induction depth generalizing path stack with
  | zero =>
      intro colors colors' placed n h
      cases h
  | succ depth ih =>
      intro colors colors' placed n h hn hkey hagrees htopo
      have hopen : n ∉ stack := fun hmem => by
        rw [(hagrees.gray n).2 hmem] at hn
        cases hn
      have hnew : n ∉ placed := fun hmem => by
        rw [(hagrees.black n).2 hmem] at hn
        cases hn
      rw [check] at h
      rw [place, if_neg hnew]
      cases hloop : (deps n).foldlM
          (checkDep (check deps fail depth (path ++ [n])) fun dep => fail (path ++ [n, dep]))
          (Function.update colors n .gray) with
      | error e => rw [hloop] at h; cases h
      | ok colors₁ =>
          rw [hloop] at h
          obtain rfl : Function.update colors₁ n .black = colors' := Except.ok.inj h
          obtain ⟨hext, hmet⟩ := ((ih (path ++ [n]) (n :: stack)).dep fun _ _ => place_of_mem).fold
            (hkeys n hkey) hloop (hagrees.open hnew) htopo
          generalize (deps n).foldl (placeDep (place deps depth (n :: stack)) (n :: stack)) placed =
            placed₁ at hext hmet ⊢
          have hlast : n ∉ placed₁ := fun hmem => by
            have hblack := (hext.agrees.black n).2 hmem
            rw [(hext.agrees.gray n).2 (List.mem_cons_self ..)] at hblack
            cases hblack
          simp only [if_neg hlast]
          refine ⟨⟨hext.agrees.close hopen, .snoc hext.topological hlast hmet,
            List.subset_append_of_subset_left _ hext.grows, fun hplaced => ?_⟩, by simp⟩
          exact List.append_subset.2 ⟨hext.keys hplaced, by simpa using hkey⟩

/-- Visit a node that is not coloured. -/
def checkRoot (deps : α → List α) (fail : List α → ε) (depth : Nat) (colors : α → Color) (n : α) :
    Except ε (α → Color) :=
  if colors n = .white then check deps fail depth [] colors n else .ok colors

/-- Visit all nodes. -/
def checkAll (deps : α → List α) (fail : List α → ε) (depth : Nat) (keys : List α) :
    Except ε (α → Color) :=
  keys.foldlM (checkRoot deps fail depth) fun _ => .white

/-- List all nodes. -/
def placeAll (deps : α → List α) (depth : Nat) (keys : List α) : List α :=
  keys.foldl (place deps depth []) []

theorem inStep_checkRoot {keys : List α} (hkeys : ∀ m ∈ keys, deps m ⊆ keys) {depth : Nat} :
    InStep deps keys [] (fun _ _ => True) (checkRoot deps fail depth) (place deps depth []) := by
  intro colors colors' placed n h _ hkey hagrees htopo
  by_cases hcolor : colors n = .white
  · rw [checkRoot, if_pos hcolor] at h
    exact inStep_check hkeys depth [] [] _ _ _ _ h hcolor hkey hagrees htopo
  · have hmem : n ∈ placed := by
      cases hc : colors n with
      | white => exact absurd hc hcolor
      | gray => cases (hagrees.gray n).1 hc
      | black => exact (hagrees.black n).1 hc
    rw [checkRoot, if_neg hcolor] at h
    rw [place_of_mem hmem, ← Except.ok.inj h]
    exact ⟨.refl hagrees htopo, hmem⟩

/-- **Where the check raises nothing, the list is of what it was asked for, prerequisites
first.** -/
theorem topological_of_roots {keys roots : List α} (hkeys : ∀ m ∈ keys, deps m ⊆ keys)
    (hroots : roots ⊆ keys) {depth : Nat} {colors : α → Color}
    (h : checkAll deps fail depth roots = .ok colors) :
    Topological deps (placeAll deps depth roots) ∧ roots ⊆ placeAll deps depth roots ∧
      placeAll deps depth roots ⊆ keys := by
  obtain ⟨hext, hall⟩ := (inStep_checkRoot hkeys).fold hroots h ⟨by simp, by simp⟩ .nil
  exact ⟨hext.topological, hall, hext.keys (List.nil_subset _)⟩

/-- A list of all nodes, if all are asked for. -/
theorem topological_placeAll {keys : List α} (hkeys : ∀ m ∈ keys, deps m ⊆ keys) {depth : Nat}
    {colors : α → Color} (h : checkAll deps fail depth keys = .ok colors) :
    Topological deps (placeAll deps depth keys) ∧
      ∀ m, m ∈ placeAll deps depth keys ↔ m ∈ keys := by
  obtain ⟨htopo, hall, hkeys'⟩ := topological_of_roots hkeys (List.Subset.refl keys) h
  exact ⟨htopo, fun m => ⟨fun hm => hkeys' hm, fun hm => hall hm⟩⟩

/-! ## What makes the check raise -/

omit [DecidableEq α] in
/-- Where steps over a list raise, one of them does. -/
theorem InStep.fold_error {keys stack : List α} {step : (α → Color) → α → Except ε (α → Color)}
    {step' : List α → α → List α} (hstep : InStep deps keys stack (fun _ _ => True) step step')
    {ds : List α} (hds : ds ⊆ keys) {colors : α → Color} {placed : List α} {e : ε}
    (h : ds.foldlM step colors = .error e) (hagrees : Agrees colors stack placed)
    (htopo : Topological deps placed) :
    ∃ d ∈ ds, ∃ colors₁ placed₁, step colors₁ d = .error e ∧ Agrees colors₁ stack placed₁ ∧
      Topological deps placed₁ := by
  induction ds generalizing colors placed with
  | nil => cases h
  | cons d ds ih =>
      rw [List.cons_subset] at hds
      rw [List.foldlM_cons] at h
      cases hd : step colors d with
      | error e' =>
          rw [hd] at h
          obtain rfl : e' = e := Except.error.inj h
          exact ⟨d, List.mem_cons_self .., colors, placed, hd, hagrees, htopo⟩
      | ok colors₁ =>
          rw [hd] at h
          obtain ⟨hone, -⟩ := hstep _ _ _ _ hd trivial hds.1 hagrees htopo
          obtain ⟨d', hd', hrest⟩ := ih hds.2 h hone.agrees hone.topological
          exact ⟨d', List.mem_cons_of_mem _ hd', hrest⟩

/-- **A visit raises on a cycle only**, if it may go as deep as there are nodes. -/
theorem cycle_of_check {keys : List α} (hkeys : ∀ m ∈ keys, deps m ⊆ keys) {depth : Nat}
    {path stack placed : List α} {colors : α → Color} {n : α} {e : ε}
    (h : check deps fail depth path colors n = .error e) (hn : colors n = .white) (hkey : n ∈ keys)
    (hagrees : Agrees colors stack placed) (htopo : Topological deps placed)
    (hnodup : stack.Nodup) (hsub : stack ⊆ keys)
    (hpath : ∀ m ∈ stack, Relation.TransGen (fun m d => d ∈ deps m) m n)
    (hdepth : keys.length ≤ depth + stack.length) :
    ∃ m, Relation.TransGen (fun m d => d ∈ deps m) m m := by
  have hopen : n ∉ stack := fun hmem => by
    rw [(hagrees.gray n).2 hmem] at hn
    cases hn
  have hnew : n ∉ placed := fun hmem => by
    rw [(hagrees.black n).2 hmem] at hn
    cases hn
  induction depth generalizing path stack placed colors n with
  | zero =>
      -- the open nodes are distinct, so there are no more of them than nodes
      have hlength := (List.Nodup.subperm (List.nodup_cons.2 ⟨hopen, hnodup⟩)
        (List.cons_subset.2 ⟨hkey, hsub⟩)).length_le
      rw [List.length_cons] at hlength
      omega
  | succ depth ih =>
      rw [check] at h
      cases hloop : (deps n).foldlM
          (checkDep (check deps fail depth (path ++ [n])) fun dep => fail (path ++ [n, dep]))
          (Function.update colors n .gray) with
      | ok colors₁ => rw [hloop] at h; cases h
      | error e' =>
          rw [hloop] at h
          obtain rfl : e' = e := Except.error.inj h
          obtain ⟨d, hd, colors₁, placed₁, hraise, hagrees₁, htopo₁⟩ :=
            ((inStep_check hkeys depth (path ++ [n]) (n :: stack)).dep fun _ _ =>
              place_of_mem).fold_error (hkeys n hkey) hloop (hagrees.open hnew) htopo
          cases hcolor : colors₁ d with
          | gray =>
              rcases List.mem_cons.1 ((hagrees₁.gray d).1 hcolor) with rfl | hmem
              · exact ⟨d, .single hd⟩
              · exact ⟨d, (hpath d hmem).tail hd⟩
          | black => rw [checkDep, hcolor] at hraise; cases hraise
          | white =>
              rw [checkDep, hcolor] at hraise
              have hopen₁ : d ∉ n :: stack := fun hmem => by
                rw [(hagrees₁.gray d).2 hmem] at hcolor
                cases hcolor
              have hnew₁ : d ∉ placed₁ := fun hmem => by
                rw [(hagrees₁.black d).2 hmem] at hcolor
                cases hcolor
              refine ih hraise hcolor (hkeys n hkey hd) hagrees₁ htopo₁
                (List.nodup_cons.2 ⟨hopen, hnodup⟩) (List.cons_subset.2 ⟨hkey, hsub⟩) ?_ ?_
                hopen₁ hnew₁
              · intro m hm
                rcases List.mem_cons.1 hm with rfl | hm
                · exact .single hd
                · exact (hpath m hm).tail hd
              · rw [List.length_cons]
                omega

omit [DecidableEq α] in
/-- Where steps over a list raise, one of them does. -/
theorem exists_of_foldlM_error {step : (α → Color) → α → Except ε (α → Color)} {ds : List α}
    {colors : α → Color} {e : ε} (h : ds.foldlM step colors = .error e) :
    ∃ d colors', step colors' d = .error e := by
  induction ds generalizing colors with
  | nil => cases h
  | cons d ds ih =>
      rw [List.foldlM_cons] at h
      cases hd : step colors d with
      | ok colors₁ =>
          rw [hd] at h
          exact ih h
      | error e' =>
          rw [hd] at h
          obtain rfl : e' = e := Except.error.inj h
          exact ⟨d, colors, hd⟩

/-- What a visit raises is made of a path. -/
theorem fail_of_check {depth : Nat} {path : List α} {colors : α → Color} {n : α} {e : ε}
    (h : check deps fail depth path colors n = .error e) : ∃ path', e = fail path' := by
  induction depth generalizing path colors n with
  | zero => exact ⟨_, (Except.error.inj h).symm⟩
  | succ depth ih =>
      rw [check] at h
      cases hfold : (deps n).foldlM
          (checkDep (check deps fail depth (path ++ [n])) fun dep => fail (path ++ [n, dep]))
          (Function.update colors n .gray) with
      | ok colors₁ => rw [hfold] at h; cases h
      | error e' =>
          rw [hfold] at h
          obtain rfl : e' = e := Except.error.inj h
          obtain ⟨d, colors₁, hd⟩ := exists_of_foldlM_error hfold
          unfold checkDep at hd
          split at hd
          · exact ⟨_, (Except.error.inj hd).symm⟩
          · exact ih hd
          · cases hd

theorem fail_of_checkAll {depth : Nat} {keys : List α} {e : ε}
    (h : checkAll deps fail depth keys = .error e) : ∃ path, e = fail path := by
  obtain ⟨d, colors, hd⟩ := exists_of_foldlM_error h
  unfold checkRoot at hd
  split at hd
  · exact fail_of_check hd
  · cases hd

/-- **The check raises on a cycle only.** -/
theorem cycle_of_roots {keys roots : List α} (hkeys : ∀ m ∈ keys, deps m ⊆ keys)
    (hroots : roots ⊆ keys) {depth : Nat} {e : ε} (h : checkAll deps fail depth roots = .error e)
    (hdepth : keys.length ≤ depth) : ∃ m, Relation.TransGen (fun m d => d ∈ deps m) m m := by
  obtain ⟨d, hd, colors, placed, hraise, hagrees, htopo⟩ :=
    (inStep_checkRoot hkeys).fold_error hroots h ⟨by simp, by simp⟩ .nil
  by_cases hcolor : colors d = .white
  · rw [checkRoot, if_pos hcolor] at hraise
    exact cycle_of_check hkeys hraise hcolor (hroots hd) hagrees htopo List.nodup_nil
      (List.nil_subset _) (by simp) (by simpa using hdepth)
  · rw [checkRoot, if_neg hcolor] at hraise
    cases hraise

theorem cycle_of_checkAll {keys : List α} (hkeys : ∀ m ∈ keys, deps m ⊆ keys) {depth : Nat} {e : ε}
    (h : checkAll deps fail depth keys = .error e) (hdepth : keys.length ≤ depth) :
    ∃ m, Relation.TransGen (fun m d => d ∈ deps m) m m :=
  cycle_of_roots hkeys (List.Subset.refl keys) h hdepth

end AiStudio.Data.DepthFirst
