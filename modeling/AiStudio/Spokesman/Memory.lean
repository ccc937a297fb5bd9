import AiStudio.Spokesman.Bridge
import Mathlib.Data.List.DropRight
import Mathlib.Data.List.Sort

/-!
# The memory of a conversation

Embeds `record_turn` and `recent_turns` of `spokesman/conversation.py` over the table
`spokesman_conversations`. `recentTurns_window` compares the walk from the newest turn down with the
window it is for. Texts are ones that a text column holds.
-/

set_option autoImplicit false

namespace AiStudio.Spokesman.Conversation

open AiStudio.Data

/-- `_ROLES`. -/
def roles : List String := ["human", "spokesman"]

/-- `MAX_TURN_CHARS`. -/
def maxTurnChars : Nat := 4000

/-- `Turn`. -/
structure Turn where
  role : String
  content : String

/-- A row of `spokesman_conversations`. -/
structure Row where
  seq : Nat
  sessionKey : String
  role : String
  content : String

/-- The table, and the next value of its identity column. -/
structure Memory where
  rows : List Row
  nextSeq : Nat

def Row.turn (row : Row) : Turn := ⟨row.role, row.content⟩

/-- `record_turn`. -/
def recordTurn (m : Memory) (sessionKey role content : String) : Memory :=
  let sessionKey := strip sessionKey
  let role := lower (strip role)
  let content := strip content
  if sessionKey = "" ∨ content = "" ∨ role ∉ roles then m
  else
    { rows := m.rows ++ [⟨m.nextSeq, sessionKey, role, clip maxTurnChars content⟩]
      nextSeq := m.nextSeq + 1 }

/-- The query of `recent_turns`. -/
def Memory.newest (m : Memory) (sessionKey : String) (limit : Nat) : List Row :=
  ((m.rows.filter fun row => row.sessionKey = sessionKey).insertionSort
    fun row row' => row'.seq ≤ row.seq).take limit

/-- The loop of `recent_turns`. -/
def keepRows (maxChars : Int) (kept : List Turn) (used : Nat) : List Row → List Turn
  | [] => kept
  | row :: rows =>
      if row.role ∉ roles then keepRows maxChars kept used rows
      else
        let used := used + row.content.length
        if kept ≠ [] ∧ maxChars < used then kept
        else keepRows maxChars (kept ++ [row.turn]) used rows

/-- `recent_turns`. -/
def recentTurns (m : Memory) (sessionKey : String) (limit maxChars : Int) : List Turn :=
  let sessionKey := strip sessionKey
  if sessionKey = "" then []
  else
    let limit := max 0 limit
    if limit = 0 then []
    else (keepRows maxChars [] 0 (m.newest sessionKey limit.toNat)).reverse

/-! ## The window -/

/-- A call of `record_turn`. -/
structure Call where
  sessionKey : String
  role : String
  content : String

/-- A call that has something to remember. -/
def Call.Recorded (c : Call) : Prop :=
  strip c.sessionKey ≠ "" ∧ strip c.content ≠ "" ∧ lower (strip c.role) ∈ roles

instance : DecidablePred Call.Recorded :=
  fun c => inferInstanceAs (Decidable (strip c.sessionKey ≠ "" ∧ strip c.content ≠ "" ∧
    lower (strip c.role) ∈ roles))

/-- The turn of a call: its content is trimmed, then cut. -/
def Call.turn (c : Call) : Turn := ⟨lower (strip c.role), clip maxTurnChars (strip c.content)⟩

theorem Row.turn_role (row : Row) : row.turn.role = row.role := rfl

theorem Call.turn_role (c : Call) : c.turn.role = lower (strip c.role) := rfl

/-- The turns of a session, oldest first. -/
def turnsOf (calls : List Call) (sessionKey : String) : List Turn :=
  (calls.filter fun c => c.Recorded ∧ strip c.sessionKey = strip sessionKey).map Call.turn

/-- The table after a sequence of calls. -/
def run (calls : List Call) : Memory :=
  calls.foldl (fun m c => recordTurn m c.sessionKey c.role c.content) ⟨[], 0⟩

def total (turns : List Turn) : Nat := (turns.map fun turn => turn.content.length).sum

/-- Turns within the budget, or one turn that is over it by itself. -/
def Fits (maxChars : Nat) (turns : List Turn) : Prop :=
  total turns ≤ maxChars ∨ ∃ turn, turns = [turn] ∧ maxChars < turn.content.length

/-- The longest part at the end of the last `limit` turns that fits. -/
structure IsWindow (limit maxChars : Nat) (turns window : List Turn) : Prop where
  isSuffix : window <:+ turns.rtake limit
  fits : Fits maxChars window
  longest : ∀ other, other <:+ turns.rtake limit → total other ≤ maxChars →
    other.length ≤ window.length
  ne_nil : turns.rtake limit ≠ [] → window ≠ []

@[simp]
theorem total_nil : total [] = 0 := rfl

@[simp]
theorem total_cons (turn : Turn) (turns : List Turn) :
    total (turn :: turns) = turn.content.length + total turns := by
  rw [total, List.map_cons, List.sum_cons, total]

@[simp]
theorem total_append (turns turns' : List Turn) :
    total (turns ++ turns') = total turns + total turns' := by
  rw [total, List.map_append, List.sum_append, total, total]

@[simp]
theorem total_reverse (turns : List Turn) : total turns.reverse = total turns := by
  rw [total, List.map_reverse, List.sum_reverse, total]

/-- There is one window. -/
theorem IsWindow.unique {limit maxChars : Nat} {turns window window' : List Turn}
    (h : IsWindow limit maxChars turns window) (h' : IsWindow limit maxChars turns window') :
    window = window' := by
  have hle : ∀ {w w'}, IsWindow limit maxChars turns w → IsWindow limit maxChars turns w' →
      w.length ≤ w'.length := by
    intro w w' hw hw'
    rcases hw.fits with hfits | ⟨turn, rfl, -⟩
    · exact hw'.longest w hw.isSuffix hfits
    · have hne : turns.rtake limit ≠ [] := by
        intro hnil
        have hsuffix := hw.isSuffix
        rw [hnil] at hsuffix
        cases List.suffix_nil.1 hsuffix
      exact List.length_pos_iff.2 (hw'.ne_nil hne)
  obtain hsub | hsub := List.suffix_or_suffix_of_suffix h.isSuffix h'.isSuffix
  · exact hsub.eq_of_length_le (hle h' h)
  · exact (hsub.eq_of_length_le (hle h h')).symm

/-! ## The table -/

/-- The rows are those of the recorded calls, in the order of their numbers. -/
structure Holds (m : Memory) (calls : List Call) : Prop where
  ordered : m.rows.Pairwise fun row row' => row.seq < row'.seq
  bounded : ∀ row ∈ m.rows, row.seq < m.nextSeq
  rows : (m.rows.map fun row => (row.sessionKey, row.turn)) =
    (calls.filter fun c => c.Recorded).map fun c => (strip c.sessionKey, c.turn)

/-- **A call adds its turn to the table**, if it has one. -/
theorem Holds.recordTurn {m : Memory} {calls : List Call} (h : Holds m calls) (c : Call) :
    Holds (recordTurn m c.sessionKey c.role c.content) (calls ++ [c]) := by
  by_cases hrecorded : c.Recorded
  · have hgate : ¬ (strip c.sessionKey = "" ∨ strip c.content = "" ∨
        lower (strip c.role) ∉ roles) := by
      obtain ⟨hkey, hcontent, hrole⟩ := hrecorded
      simp [hkey, hcontent, hrole]
    rw [Conversation.recordTurn]
    simp only [if_neg hgate]
    refine ⟨?_, ?_, ?_⟩
    · refine List.pairwise_append.2 ⟨h.ordered, List.pairwise_singleton _ _, ?_⟩
      intro row hrow row' hrow'
      obtain rfl := List.mem_singleton.1 hrow'
      exact h.bounded row hrow
    · intro row hrow
      rcases List.mem_append.1 hrow with hrow | hrow
      · exact Nat.lt_succ_of_lt (h.bounded row hrow)
      · obtain rfl := List.mem_singleton.1 hrow
        exact Nat.lt_succ_self _
    · rw [List.map_append, h.rows, List.filter_append, List.map_append]
      simp [hrecorded, Call.turn, Row.turn]
  · have hgate : strip c.sessionKey = "" ∨ strip c.content = "" ∨
        lower (strip c.role) ∉ roles := by
      by_contra hnone
      push Not at hnone
      exact hrecorded hnone
    rw [Conversation.recordTurn]
    simp only [if_pos hgate]
    refine ⟨h.ordered, h.bounded, ?_⟩
    rw [h.rows, List.filter_append]
    simp [hrecorded]

theorem run_concat (calls : List Call) (c : Call) :
    run (calls ++ [c]) = recordTurn (run calls) c.sessionKey c.role c.content :=
  List.foldl_concat ..

/-- **The table after any calls.** -/
theorem holds_run (calls : List Call) : Holds (run calls) calls := by
  induction calls using List.reverseRecOn with
  | nil => exact ⟨List.Pairwise.nil, by simp [run], rfl⟩
  | append_singleton calls c ih =>
      rw [run_concat]
      exact ih.recordTurn c

theorem orderedInsert_newest {row : Row} {rows : List Row} (h : ∀ row' ∈ rows, row.seq < row'.seq) :
    rows.orderedInsert (fun row row' => row'.seq ≤ row.seq) row = rows ++ [row] := by
  induction rows with
  | nil => rfl
  | cons row' rows ih =>
      rw [List.forall_mem_cons] at h
      rw [List.orderedInsert, if_neg (by omega), ih h.2, List.cons_append]

/-- Rows in the order of their numbers, newest first. -/
theorem insertionSort_newest {rows : List Row}
    (h : rows.Pairwise fun row row' => row.seq < row'.seq) :
    rows.insertionSort (fun row row' => row'.seq ≤ row.seq) = rows.reverse := by
  induction rows with
  | nil => rfl
  | cons row rows ih =>
      rw [List.pairwise_cons] at h
      rw [List.insertionSort_cons, ih h.2, List.reverse_cons]
      exact orderedInsert_newest fun row' hrow' => h.1 row' (List.mem_reverse.1 hrow')

/-- The query gives the last turns of the session, newest first. -/
theorem Holds.newest {m : Memory} {calls : List Call} (h : Holds m calls) (sessionKey : String)
    (limit : Nat) :
    (m.newest (strip sessionKey) limit).map Row.turn =
      ((turnsOf calls sessionKey).rtake limit).reverse := by
  have hrows : (m.rows.filter fun row => row.sessionKey = strip sessionKey).map Row.turn =
      turnsOf calls sessionKey := by
    have hpairs := congrArg (fun pairs : List (String × Turn) =>
      (pairs.filter fun pair => pair.1 = strip sessionKey).map Prod.snd) h.rows
    simp only [List.filter_map, List.map_map, List.filter_filter, Function.comp_def] at hpairs
    have hcalls : (calls.filter fun c => c.Recorded ∧ strip c.sessionKey = strip sessionKey) =
        calls.filter fun c => decide (strip c.sessionKey = strip sessionKey) && decide c.Recorded := by
      refine List.filter_congr fun c _ => ?_
      rw [Bool.decide_and, Bool.and_comm]
    rw [turnsOf, hcalls]
    exact hpairs
  rw [Memory.newest, insertionSort_newest (h.ordered.sublist List.filter_sublist), List.map_take,
    List.map_reverse, hrows, List.rtake_eq_reverse_take_reverse, List.reverse_reverse]

theorem Holds.role_mem {m : Memory} {calls : List Call} (h : Holds m calls) {row : Row}
    (hrow : row ∈ m.rows) : row.role ∈ roles := by
  have hmem : (row.sessionKey, row.turn) ∈
      (calls.filter fun c => c.Recorded).map fun c => (strip c.sessionKey, c.turn) := by
    rw [← h.rows]
    exact List.mem_map_of_mem hrow
  obtain ⟨c, hc, hpair⟩ := List.mem_map.1 hmem
  have hrecorded : c.Recorded := of_decide_eq_true (List.mem_filter.1 hc).2
  have hrole : c.turn.role = row.turn.role := by rw [(Prod.mk.inj hpair).2]
  rw [Call.turn_role, Row.turn_role] at hrole
  rw [← hrole]
  exact hrecorded.2.2

/-! ## The walk -/

/-- **The walk takes as many turns as fit.** -/
theorem keepRows_longest {maxChars : Nat} {rows : List Row} (hroles : ∀ row ∈ rows, row.role ∈ roles)
    {kept : List Turn} (hfits : Fits maxChars kept) :
    ∃ more, keepRows maxChars kept (total kept) rows = kept ++ more ∧
      more <+: rows.map Row.turn ∧ Fits maxChars (kept ++ more) ∧
      (∀ other, other <+: rows.map Row.turn → total (kept ++ other) ≤ maxChars →
        other.length ≤ more.length) ∧
      (rows ≠ [] → kept ++ more ≠ []) := by
  induction rows generalizing kept with
  | nil =>
      refine ⟨[], (List.append_nil kept).symm, List.prefix_rfl, by rwa [List.append_nil], ?_,
        absurd rfl⟩
      intro other hother _
      rw [List.prefix_nil.1 hother]
  | cons row rows ih =>
      rw [List.forall_mem_cons] at hroles
      rw [keepRows, if_neg (not_not.2 hroles.1)]
      have htotal : total (kept ++ [row.turn]) = total kept + row.content.length := by
        simp [Row.turn]
      by_cases hover : kept ≠ [] ∧ (maxChars : Int) < (total kept + row.content.length : Nat)
      · -- the next turn is over the budget, and so is whatever holds it
        simp only [if_pos hover]
        refine ⟨[], (List.append_nil kept).symm, List.nil_prefix, by rwa [List.append_nil], ?_, ?_⟩
        · intro other hother hbound
          cases other with
          | nil => exact Nat.le_refl _
          | cons turn other =>
              obtain ⟨rfl, -⟩ := List.cons_prefix_cons.1 hother
              have hlt : maxChars < total kept + row.content.length := by exact_mod_cast hover.2
              simp only [total_append, total_cons, Row.turn] at hbound
              omega
        · intro _
          rw [List.append_nil]
          exact hover.1
      · simp only [if_neg hover]
        rw [← htotal]
        have hfits' : Fits maxChars (kept ++ [row.turn]) := by
          rw [not_and_or, not_not] at hover
          rcases Nat.lt_or_ge maxChars (total (kept ++ [row.turn])) with hlt | hle
          · rcases hover with rfl | hover
            · right
              refine ⟨row.turn, rfl, ?_⟩
              simpa using hlt
            · rw [htotal] at hlt
              exact absurd (by exact_mod_cast hlt) hover
          · exact .inl hle
        obtain ⟨more, hkeep, hprefix, hmore, hlongest, -⟩ := ih hroles.2 hfits'
        refine ⟨row.turn :: more, ?_, ?_, ?_, ?_, ?_⟩
        · rw [hkeep, List.append_assoc, List.singleton_append]
        · exact List.cons_prefix_cons.2 ⟨rfl, hprefix⟩
        · rwa [List.append_assoc, List.singleton_append] at hmore
        · intro other hother hbound
          cases other with
          | nil => exact Nat.zero_le _
          | cons turn other =>
              obtain ⟨rfl, hrest⟩ := List.cons_prefix_cons.1 hother
              refine Nat.succ_le_succ (hlongest other hrest ?_)
              rwa [List.append_assoc, List.singleton_append]
        · intro _
          simp

/-- **Memory is a window**: what `recent_turns` gives is the longest end of the last `limit` turns
of the session that fits into `max_chars`. -/
theorem recentTurns_window (calls : List Call) (sessionKey : String) (limit maxChars : Nat) :
    IsWindow limit maxChars (turnsOf calls sessionKey)
      (recentTurns (run calls) sessionKey limit maxChars) := by
  have hholds := holds_run calls
  have hempty : (turnsOf calls sessionKey).rtake limit = [] →
      IsWindow limit maxChars (turnsOf calls sessionKey) [] := by
    intro hnil
    refine ⟨List.nil_suffix, .inl (Nat.zero_le _), ?_, absurd hnil⟩
    intro other hother _
    rw [hnil] at hother
    rw [List.suffix_nil.1 hother]
  rw [recentTurns]
  by_cases hkey : strip sessionKey = ""
  · simp only [if_pos hkey]
    apply hempty
    have hnone : turnsOf calls sessionKey = [] := by
      rw [turnsOf, List.filter_eq_nil_iff.2, List.map_nil]
      intro c _ hc
      rw [decide_eq_true_eq] at hc
      exact hc.1.1 (hc.2.trans hkey)
    rw [hnone, List.rtake_nil]
  · simp only [if_neg hkey]
    have hmax : max 0 (limit : Int) = limit := max_eq_right (Int.natCast_nonneg _)
    rw [hmax]
    by_cases hlimit : (limit : Int) = 0
    · simp only [if_pos hlimit]
      apply hempty
      obtain rfl : limit = 0 := by exact_mod_cast hlimit
      exact List.rtake_zero _
    · simp only [if_neg hlimit, Int.toNat_natCast]
      have hroles : ∀ row ∈ (run calls).newest (strip sessionKey) limit, row.role ∈ roles := by
        intro row hrow
        refine hholds.role_mem ?_
        have hsorted := List.mem_of_mem_take hrow
        exact List.mem_of_mem_filter ((List.perm_insertionSort _ _).mem_iff.1 hsorted)
      have hnone : Fits maxChars [] := .inl (Nat.zero_le _)
      obtain ⟨window, hkeep, hprefix, hfits, hlongest, hne⟩ := keepRows_longest hroles hnone
      rw [hholds.newest] at hprefix hlongest
      rw [total_nil, List.nil_append] at hkeep
      rw [List.nil_append] at hfits hne
      rw [hkeep]
      refine ⟨?_, ?_, ?_, ?_⟩
      · rwa [← List.reverse_prefix, List.reverse_reverse]
      · rcases hfits with hfits | ⟨turn, rfl, hover⟩
        · exact .inl (by rwa [total_reverse])
        · exact .inr ⟨turn, rfl, hover⟩
      · intro other hother hbound
        have hsize : other.length = other.reverse.length := List.length_reverse.symm
        rw [List.length_reverse, hsize]
        refine hlongest _ ?_ ?_
        · exact List.reverse_prefix.2 hother
        · rwa [List.nil_append, total_reverse]
      · intro hturns
        rw [Ne, List.reverse_eq_nil_iff]
        refine hne fun hnil => hturns ?_
        have hrows := hholds.newest sessionKey limit
        rw [hnil, List.map_nil] at hrows
        exact List.reverse_eq_nil_iff.1 hrows.symm

end AiStudio.Spokesman.Conversation
