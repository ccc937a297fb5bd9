import AiStudio.Runtime.Planning

/-!
# Dependency maps

Embeds `assert_acyclic` of `runtime/task_state.py` on a dictionary from nodes to prerequisites. The
recursion of `visit` is bounded by a depth; `terminates` says which depth is never reached, and
`assertAcyclic_decides` what the search then says. `visit_follows_check` ties it to the search of
`AiStudio.Data.DepthFirst`.
-/

set_option autoImplicit false

namespace AiStudio.Runtime

open AiStudio.Data.DepthFirst

/-- A dictionary from nodes to their prerequisites: each key stands once. -/
structure DependencyMap (α : Type) where
  entries : List (α × List α)
  nodup : (entries.map Prod.fst).Nodup

namespace DependencyMap

variable {α : Type} [DecidableEq α]

/-- What ends a search early: the bound on its depth, or an exception. -/
inductive Stop where
  | depth
  | raised (e : Exn)

def keys (edges : DependencyMap α) : List α := edges.entries.map Prod.fst

/-- `edges.get(n, [])`. -/
def get (edges : DependencyMap α) (n : α) : List α := (edges.entries.lookup n).getD []

section Search

variable [ToString α]

/-- The loop of `visit` on one prerequisite. -/
def visitDep (visit : (α → Color) → List α → α → Except Stop (α → Color)) (stack : List α) (n : α)
    (color : α → Color) (dep : α) : Except Stop (α → Color) :=
  if dep = n then
    .error (.raised (.dependencyCycle ("task " ++ toString n ++ " depends on itself")))
  else if color dep = .gray then
    .error (.raised (.dependencyCycle
      ("dependency cycle: " ++ " → ".intercalate ((stack ++ [n, dep]).map toString))))
  else if color dep = .white then visit color (stack ++ [n]) dep
  else .ok color

/-- `visit`; a node without a colour is white, as `color.get(dep, WHITE)` has it. -/
def visit (edges : DependencyMap α) :
    Nat → (α → Color) → List α → α → Except Stop (α → Color)
  | 0, _, _, _ => .error .depth
  | depth + 1, color, stack, n => do
      let color ← (edges.get n).foldlM (visitDep (edges.visit depth) stack n)
        (Function.update color n .gray)
      return Function.update color n .black

/-- The loop of `assert_acyclic` on one key. -/
def visitRoot (edges : DependencyMap α) (depth : Nat) (color : α → Color) (node : α) :
    Except Stop (α → Color) :=
  if color node = .white then edges.visit depth color [] node else .ok color

/-- `assert_acyclic`, with calls of `visit` nested at most `depth` deep. -/
def assertAcyclic (edges : DependencyMap α) (depth : Nat) : Except Stop Unit := do
  let _ ← edges.keys.foldlM (edges.visitRoot depth) fun _ => .white
  return ()

end Search

/-- The nodes of a map: its keys and what they need. -/
def nodes (edges : DependencyMap α) : List α := edges.keys ++ edges.entries.flatMap Prod.snd

/-- The edges of the graph, from a node to its prerequisite. -/
def Requires (edges : DependencyMap α) (n dep : α) : Prop := dep ∈ edges.get n

def Cyclic (edges : DependencyMap α) : Prop := ∃ n, Relation.TransGen edges.Requires n n

variable {edges : DependencyMap α}

/-- Only keys need anything, and what they need is among the nodes. -/
theorem mem_of_requires {n dep : α} (h : edges.Requires n dep) :
    n ∈ edges.keys ∧ dep ∈ edges.nodes := by
  rw [Requires, get] at h
  cases hlookup : edges.entries.lookup n with
  | none =>
      rw [hlookup] at h
      cases h
  | some deps =>
      rw [hlookup] at h
      obtain ⟨before, after, hentries, -⟩ := List.lookup_eq_some_iff.1 hlookup
      have hmem : (n, deps) ∈ edges.entries := by
        rw [hentries]
        exact List.mem_append_right _ (List.mem_cons_self ..)
      refine ⟨List.mem_map_of_mem hmem, ?_⟩
      exact List.mem_append_right _ (List.mem_flatMap.2 ⟨_, hmem, h⟩)

theorem get_subset (n : α) : edges.get n ⊆ edges.nodes :=
  fun _ h => (mem_of_requires h).2

omit [DecidableEq α] in
theorem keys_subset : edges.keys ⊆ edges.nodes :=
  List.subset_append_left _ _

/-! ## Colours only grow -/

/-- A node that has a colour keeps it. -/
def Keeps (color color' : α → Color) : Prop := ∀ m, color m ≠ .white → color' m = color m

omit [DecidableEq α] in
theorem Keeps.refl (color : α → Color) : Keeps color color :=
  fun _ _ => rfl

omit [DecidableEq α] in
theorem Keeps.trans {color color₁ color₂ : α → Color} (h₁ : Keeps color color₁)
    (h₂ : Keeps color₁ color₂) : Keeps color color₂ := by
  intro m hm
  have hm₁ := h₁ m hm
  rw [h₂ m (by rwa [hm₁]), hm₁]

/-- A new node is coloured. -/
theorem Keeps.update {color : α → Color} {n : α} (hn : color n = .white) (c : Color) :
    Keeps color (Function.update color n c) := by
  intro m hm
  refine Function.update_of_ne ?_ _ _
  rintro rfl
  exact hm hn

/-- The nodes that are not seen. -/
def unseen (edges : DependencyMap α) (color : α → Color) : Finset α :=
  edges.nodes.toFinset.filter fun m => color m = .white

theorem Keeps.unseen_subset {color color' : α → Color} (h : Keeps color color')
    (edges : DependencyMap α) :
    edges.unseen color' ⊆ edges.unseen color := by
  intro m hm
  rw [unseen, Finset.mem_filter] at hm ⊢
  refine ⟨hm.1, ?_⟩
  by_contra hcolor
  exact hcolor ((h m hcolor).symm.trans hm.2)

/-- Opening a node leaves fewer unseen. -/
theorem unseen_open_lt {color : α → Color} {n : α} (hn : color n = .white) (hmem : n ∈ edges.nodes) :
    (edges.unseen (Function.update color n .gray)).card < (edges.unseen color).card := by
  refine Finset.card_lt_card ⟨(Keeps.update hn .gray).unseen_subset edges, ?_⟩
  intro hsub
  have hin : n ∈ edges.unseen color :=
    Finset.mem_filter.2 ⟨List.mem_toFinset.2 hmem, hn⟩
  have hout := (Finset.mem_filter.1 (hsub hin)).2
  rw [Function.update_self] at hout
  cases hout

section Runs

variable [ToString α]

/-- What the loop does with a prerequisite. -/
theorem visitDep_cases (visit : (α → Color) → List α → α → Except Stop (α → Color))
    (stack : List α) (n : α) (color : α → Color) (dep : α) :
    (∃ m, visitDep visit stack n color dep = .error (.raised (.dependencyCycle m))) ∨
      (color dep = .white ∧ visitDep visit stack n color dep = visit color (stack ++ [n]) dep) ∨
      visitDep visit stack n color dep = .ok color := by
  unfold visitDep
  split
  · exact .inl ⟨_, rfl⟩
  · split
    · exact .inl ⟨_, rfl⟩
    · split
      · rename_i hwhite
        exact .inr (.inl ⟨hwhite, rfl⟩)
      · exact .inr (.inr rfl)

omit [DecidableEq α] [ToString α] in
/-- Steps that keep the colours keep them over a list. -/
theorem keeps_foldlM {step : (α → Color) → α → Except Stop (α → Color)}
    (hstep : ∀ color dep color', step color dep = .ok color' → Keeps color color') {ds : List α}
    {color color' : α → Color} (h : ds.foldlM step color = .ok color') : Keeps color color' := by
  induction ds generalizing color with
  | nil =>
      obtain rfl : color = color' := Except.ok.inj h
      exact .refl color
  | cons d ds ih =>
      rw [List.foldlM_cons] at h
      cases hd : step color d with
      | error e =>
          rw [hd] at h
          cases h
      | ok color₁ =>
          rw [hd] at h
          exact (hstep _ _ _ hd).trans (ih h)

theorem keeps_visitDep {visit : (α → Color) → List α → α → Except Stop (α → Color)}
    (hvisit : ∀ color stack n color', color n = .white → visit color stack n = .ok color' →
      Keeps color color') {stack : List α} {n : α} (color : α → Color) (dep : α)
    (color' : α → Color) (h : visitDep visit stack n color dep = .ok color') :
    Keeps color color' := by
  obtain ⟨m, herror⟩ | ⟨hwhite, hcall⟩ | hdone := visitDep_cases visit stack n color dep
  · rw [herror] at h
    cases h
  · rw [hcall] at h
    exact hvisit _ _ _ _ hwhite h
  · rw [hdone] at h
    obtain rfl := Except.ok.inj h
    exact .refl color

/-- **A visit takes no colour back.** -/
theorem keeps_visit (depth : Nat) :
    ∀ (color : α → Color) (stack : List α) (n : α) (color' : α → Color), color n = .white →
      edges.visit depth color stack n = .ok color' → Keeps color color' := by
  induction depth with
  | zero =>
      intro color stack n color' _ h
      cases h
  | succ depth ih =>
      intro color stack n color' hn h
      rw [visit] at h
      cases hloop : (edges.get n).foldlM (visitDep (edges.visit depth) stack n)
          (Function.update color n .gray) with
      | error e =>
          rw [hloop] at h
          cases h
      | ok color₁ =>
          rw [hloop] at h
          obtain rfl : Function.update color₁ n .black = color' := Except.ok.inj h
          have hkeeps := keeps_foldlM (keeps_visitDep ih) hloop
          intro m hm
          have hne : m ≠ n := by
            rintro rfl
            exact hm hn
          rw [Function.update_of_ne hne, hkeeps m (by rwa [Function.update_of_ne hne]),
            Function.update_of_ne hne]

theorem keeps_visitRoot {depth : Nat} (color : α → Color) (node : α) (color' : α → Color)
    (h : edges.visitRoot depth color node = .ok color') : Keeps color color' := by
  unfold visitRoot at h
  split at h
  · rename_i hwhite
    exact keeps_visit depth _ _ _ _ hwhite h
  · obtain rfl := Except.ok.inj h
    exact .refl color

/-! ## The depth is never reached -/

omit [ToString α] in
/-- Steps over a list stay within the depth, if each does while no more nodes are unseen. -/
theorem foldlM_ne_depth {step : (α → Color) → α → Except Stop (α → Color)} {bound : Nat}
    (hkeeps : ∀ color dep color', step color dep = .ok color' → Keeps color color') {ds : List α}
    (hds : ds ⊆ edges.nodes)
    (hstep : ∀ color, (edges.unseen color).card ≤ bound → ∀ dep ∈ edges.nodes,
      step color dep ≠ .error .depth)
    {color : α → Color} (hbound : (edges.unseen color).card ≤ bound) :
    ds.foldlM step color ≠ .error .depth := by
  induction ds generalizing color with
  | nil =>
      intro h
      cases h
  | cons d ds ih =>
      rw [List.cons_subset] at hds
      rw [List.foldlM_cons]
      cases hd : step color d with
      | error e =>
          intro h
          obtain rfl : e = .depth := Except.error.inj h
          exact hstep color hbound d hds.1 hd
      | ok color₁ =>
          have hle := Finset.card_le_card ((hkeeps _ _ _ hd).unseen_subset edges)
          exact ih hds.2 (hle.trans hbound)

/-- **A visit goes no deeper than there are unseen nodes.** -/
theorem visit_ne_depth (depth : Nat) :
    ∀ (color : α → Color) (stack : List α) (n : α), color n = .white → n ∈ edges.nodes →
      (edges.unseen color).card ≤ depth → edges.visit depth color stack n ≠ .error .depth := by
  induction depth with
  | zero =>
      intro color stack n hn hmem hbound
      have hlt := unseen_open_lt hn hmem
      omega
  | succ depth ih =>
      intro color stack n hn hmem hbound h
      have hlt := unseen_open_lt hn hmem
      have hloop : (edges.get n).foldlM (visitDep (edges.visit depth) stack n)
          (Function.update color n .gray) ≠ .error .depth := by
        refine foldlM_ne_depth (keeps_visitDep (keeps_visit depth)) (get_subset n) ?_
          (Nat.le_of_lt_succ (lt_of_lt_of_le hlt hbound))
        intro color₁ hbound₁ dep hdep hraise
        obtain ⟨m, herror⟩ | ⟨hwhite, hcall⟩ | hdone :=
          visitDep_cases (edges.visit depth) stack n color₁ dep
        · rw [herror] at hraise
          cases hraise
        · rw [hcall] at hraise
          exact ih _ _ _ hwhite hdep hbound₁ hraise
        · rw [hdone] at hraise
          cases hraise
      rw [visit] at h
      cases hfold : (edges.get n).foldlM (visitDep (edges.visit depth) stack n)
          (Function.update color n .gray) with
      | error e =>
          rw [hfold] at h hloop
          exact hloop (congrArg _ (Except.error.inj h))
      | ok color₁ =>
          rw [hfold] at h
          cases h

/-- **The search ends**: its depth stays below the number of nodes. -/
theorem terminates {depth : Nat} (hdepth : edges.nodes.length ≤ depth) :
    edges.assertAcyclic depth ≠ .error .depth := by
  have hbound : (edges.unseen fun _ => .white).card ≤ depth :=
    (Finset.card_filter_le _ _).trans ((List.toFinset_card_le _).trans hdepth)
  have hloop : edges.keys.foldlM (edges.visitRoot depth) (fun _ => .white) ≠ .error .depth := by
    refine foldlM_ne_depth keeps_visitRoot keys_subset ?_ hbound
    intro color hbound₁ node hnode hraise
    unfold visitRoot at hraise
    split at hraise
    · rename_i hwhite
      exact visit_ne_depth depth _ _ _ hwhite hnode hbound₁ hraise
    · cases hraise
  intro h
  rw [assertAcyclic] at h
  cases hfold : edges.keys.foldlM (edges.visitRoot depth) (fun _ => .white) with
  | error e =>
      rw [hfold] at h hloop
      exact hloop (congrArg _ (Except.error.inj h))
  | ok color =>
      rw [hfold] at h
      cases h

/-! ## Searches side by side -/

/-- The first run reaches its depth, or does what the second does. -/
def Follows {β : Type} (run run' : Except Stop β) : Prop := run = .error .depth ∨ run = run'

omit [DecidableEq α] [ToString α] in
/-- Loops follow each other as their steps do, as long as the colours stay good. -/
theorem follows_foldlM (good : (α → Color) → Prop)
    {step step' : (α → Color) → α → Except Stop (α → Color)}
    (hstep : ∀ color dep, good color → Follows (step color dep) (step' color dep))
    (hgood : ∀ color dep color', good color → step color dep = .ok color' → good color')
    {ds : List α} {color : α → Color} (hcolor : good color) :
    Follows (ds.foldlM step color) (ds.foldlM step' color) := by
  induction ds generalizing color with
  | nil => exact .inr rfl
  | cons d ds ih =>
      rw [List.foldlM_cons, List.foldlM_cons]
      obtain hdepth | hsame := hstep color d hcolor
      · rw [hdepth]
        exact .inl rfl
      · rw [← hsame]
        cases hd : step color d with
        | error e => exact .inr rfl
        | ok color₁ => exact ih (hgood _ _ _ hcolor hd)

theorem Follows.bind {β γ : Type} {run run' : Except Stop β} (h : Follows run run')
    (f : β → Except Stop γ) : Follows (run >>= f) (run' >>= f) := by
  obtain hdepth | hsame := h
  · rw [hdepth]
    exact .inl rfl
  · rw [hsame]
    exact .inr rfl

/-- A deeper visit says the same. -/
theorem visit_follows_visit (depth : Nat) :
    ∀ (color : α → Color) (stack : List α) (n : α),
      Follows (edges.visit depth color stack n) (edges.visit (depth + 1) color stack n) := by
  induction depth with
  | zero => exact fun _ _ _ => .inl rfl
  | succ depth ih =>
      intro color stack n
      rw [visit, visit]
      refine Follows.bind ?_ _
      refine follows_foldlM (fun _ => True) ?_ (fun _ _ _ _ _ => trivial) trivial
      intro color₁ dep _
      unfold visitDep
      split
      · exact .inr rfl
      · split
        · exact .inr rfl
        · split
          · exact ih _ _ _
          · exact .inr rfl

/-- What the search raises for a path that runs into itself. -/
def raisedBy (path : List α) : Stop :=
  match path.reverse with
  | dep :: n :: _ =>
      if dep = n then .raised (.dependencyCycle ("task " ++ toString n ++ " depends on itself"))
      else .raised (.dependencyCycle ("dependency cycle: " ++ " → ".intercalate (path.map toString)))
  | _ => .raised (.dependencyCycle "dependency cycle")

/-- The loop looks at a prerequisite as `checkDep` does, its own node being open. -/
theorem visitDep_follows_checkDep {visit : (α → Color) → List α → α → Except Stop (α → Color)}
    {check : (α → Color) → α → Except Stop (α → Color)} {stack : List α} {n : α}
    (hvisit : ∀ color dep, color dep = .white →
      Follows (visit color (stack ++ [n]) dep) (check color dep))
    (color : α → Color) (dep : α) (hn : color n = .gray) :
    Follows (visitDep visit stack n color dep)
      (checkDep check (fun dep => raisedBy (stack ++ [n, dep])) color dep) := by
  have hraise : raisedBy (stack ++ [n, dep]) =
      if dep = n then .raised (.dependencyCycle ("task " ++ toString n ++ " depends on itself"))
      else .raised (.dependencyCycle
        ("dependency cycle: " ++ " → ".intercalate ((stack ++ [n, dep]).map toString))) := by
    simp [raisedBy]
  cases hcolor : color dep with
  | gray =>
      right
      rw [checkDep, hcolor, hraise, visitDep, if_pos hcolor]
      split <;> rfl
  | white =>
      have hne : dep ≠ n := by
        rintro rfl
        rw [hn] at hcolor
        cases hcolor
      rw [checkDep, hcolor, visitDep, if_neg hne, hcolor, if_neg (by decide), if_pos rfl]
      exact hvisit color dep hcolor
  | black =>
      have hne : dep ≠ n := by
        rintro rfl
        rw [hn] at hcolor
        cases hcolor
      right
      rw [checkDep, hcolor, visitDep, if_neg hne, hcolor, if_neg (by decide), if_neg (by decide)]

/-- **The search of the code is the library's.** -/
theorem visit_follows_check (depth : Nat) :
    ∀ (color : α → Color) (stack : List α) (n : α),
      Follows (edges.visit depth color stack n) (check edges.get raisedBy depth stack color n) := by
  induction depth with
  | zero => exact fun _ _ _ => .inl rfl
  | succ depth ih =>
      intro color stack n
      rw [visit, check]
      refine Follows.bind ?_ _
      refine follows_foldlM (fun color => color n = .gray) ?_ ?_ (Function.update_self ..)
      · exact fun color₁ dep hn => visitDep_follows_checkDep (fun _ _ _ => ih _ _ _) color₁ dep hn
      · intro color₁ dep color₂ hn hdone
        have hkeeps := keeps_visitDep (keeps_visit depth) color₁ dep color₂ hdone
        rw [hkeeps n (by rw [hn]; decide), hn]

theorem assertAcyclic_follows (depth : Nat) :
    Follows (edges.assertAcyclic depth) (edges.assertAcyclic (depth + 1)) := by
  refine Follows.bind ?_ _
  refine follows_foldlM (fun _ => True) ?_ (fun _ _ _ _ _ => trivial) trivial
  intro color node _
  unfold visitRoot
  split
  · exact visit_follows_visit depth _ _ _
  · exact .inr rfl

/-- Beyond the number of nodes the depth makes no difference. -/
theorem assertAcyclic_eq {depth : Nat} (hdepth : edges.nodes.length ≤ depth) :
    edges.assertAcyclic depth = edges.assertAcyclic edges.nodes.length := by
  induction depth, hdepth using Nat.le_induction with
  | base => rfl
  | succ depth hdepth ih =>
      obtain hreached | hsame := edges.assertAcyclic_follows depth
      · exact absurd hreached (terminates hdepth)
      · rw [← hsame, ih]

theorem assertAcyclic_eq_checkAll (edges : DependencyMap α) {depth : Nat} (hdepth : edges.nodes.length ≤ depth) :
    edges.assertAcyclic depth =
      (checkAll edges.get raisedBy depth edges.keys).map fun _ => () := by
  have hfollows : Follows (edges.assertAcyclic depth)
      (checkAll edges.get raisedBy depth edges.keys >>= fun _ => pure ()) := by
    refine Follows.bind ?_ _
    refine follows_foldlM (fun _ => True) ?_ (fun _ _ _ _ _ => trivial) trivial
    intro color node _
    unfold visitRoot checkRoot
    split
    · exact visit_follows_check depth _ _ _
    · exact .inr rfl
  obtain hreached | hsame := hfollows
  · exact absurd hreached (terminates hdepth)
  · rw [hsame]
    cases checkAll edges.get raisedBy depth edges.keys <;> rfl

theorem raisedBy_isCycle (path : List α) :
    ∃ m, raisedBy path = .raised (.dependencyCycle m) := by
  unfold raisedBy
  split
  · split
    · exact ⟨_, rfl⟩
    · exact ⟨_, rfl⟩
  · exact ⟨_, rfl⟩

/-- **The search raises on a cycle only, and on every one.** -/
theorem cases_of_checkAll (edges : DependencyMap α) {depth : Nat} (hdepth : edges.nodes.length ≤ depth) :
    edges.Cyclic ∧
        (∃ m, checkAll edges.get raisedBy depth edges.keys =
          .error (.raised (.dependencyCycle m))) ∨
      ¬ edges.Cyclic ∧ ∃ color, checkAll edges.get raisedBy depth edges.keys = .ok color := by
  have hclosed : ∀ m ∈ edges.nodes, edges.get m ⊆ edges.nodes := fun m _ => get_subset m
  cases hcheck : checkAll edges.get raisedBy depth edges.keys with
  | error e =>
      obtain ⟨path, rfl⟩ := fail_of_checkAll hcheck
      obtain ⟨m, hm⟩ := raisedBy_isCycle path
      exact .inl ⟨cycle_of_roots hclosed keys_subset hcheck hdepth, m, by rw [hm]⟩
  | ok color =>
      refine .inr ⟨?_, color, rfl⟩
      rintro ⟨n, hcycle⟩
      obtain ⟨htopo, hall, -⟩ := topological_of_roots hclosed keys_subset hcheck
      -- a node on a cycle needs something, so it is a key
      obtain ⟨dep, hdep, -⟩ := Relation.TransGen.head'_iff.1 hcycle
      exact htopo.acyclic n (hall (mem_of_requires hdep).1) hcycle

/-- **`assert_acyclic` decides whether there is a cycle**: from some depth on the search ends, always
in the same way, which is a `DependencyCycle` exactly if there is one. -/
theorem assertAcyclic_decides (edges : DependencyMap α) :
    ∃ outcome : Except Exn Unit,
      (∀ depth, edges.nodes.length ≤ depth →
        edges.assertAcyclic depth = outcome.mapError Stop.raised) ∧
      (edges.Cyclic ∧ (∃ m, outcome = .error (.dependencyCycle m)) ∨
        ¬ edges.Cyclic ∧ outcome = .ok ()) := by
  have hlast := assertAcyclic_eq_checkAll edges le_rfl
  obtain ⟨hcyclic, m, hraise⟩ | ⟨hacyclic, color, hdone⟩ := cases_of_checkAll edges le_rfl
  · rw [hraise] at hlast
    refine ⟨.error (.dependencyCycle m), ?_, .inl ⟨hcyclic, m, rfl⟩⟩
    intro depth hdepth
    rw [assertAcyclic_eq hdepth, hlast]
    rfl
  · rw [hdone] at hlast
    refine ⟨.ok (), ?_, .inr ⟨hacyclic, rfl⟩⟩
    intro depth hdepth
    rw [assertAcyclic_eq hdepth, hlast]
    rfl

end Runs

end DependencyMap

end AiStudio.Runtime
