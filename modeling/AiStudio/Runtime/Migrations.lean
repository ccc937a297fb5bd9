import AiStudio.Concurrency.Schedule
import AiStudio.Runtime.Models
import Mathlib.Data.List.Sort
import Mathlib.Data.String.Basic

/-!
# Migrations

Embeds `runtime/migrate.py`: the files of a directory that `schema_migrations` does not name are
applied in the order of their names, each in a transaction of its own that also records the name.
What the text of a file does to the database is a parameter.

Any number of runners may start at any time, be struck by failures and die between two files. What
they leave is a prefix of the pending files, each applied once and in order, and a runner that
returns has left all of them (`prefix_of_reach`).
-/

set_option autoImplicit false

namespace AiStudio.Runtime

open AiStudio.Concurrency

/-! ## Files and the database -/

/-- A file of the directory: its name, and what its text does to the database. -/
structure Migration (D : Type) where
  name : String
  sql : D → Except Exn D

/-- A directory names a file once. -/
structure MigrationsDir (D : Type) where
  files : List (Migration D)
  distinct : (files.map Migration.name).Nodup

/-- The database, and the rows of `schema_migrations`, oldest first. -/
structure MigratedDb (D : Type) where
  data : D
  recorded : List String

variable {D : Type}

/-- `discover`. -/
def discover (dir : MigrationsDir D) : List (Migration D) :=
  dir.files.insertionSort fun m m' => m.name ≤ m'.name

/-- The calls of a runner. -/
inductive MigrateOp (D : Type) where
  | applied
  | apply (m : Migration D)

namespace MigrateOp

/-- What a call returns. -/
def Res : MigrateOp D → Type
  | applied => List String
  | apply _ => Unit

/-- The transaction of a call: the file is run, and its name is recorded under a primary key. -/
def exec : (o : MigrateOp D) → MigratedDb D → Except Exn (o.Res × MigratedDb D)
  | applied => fun s => .ok (s.recorded, s)
  | apply m => fun s =>
      match m.sql s.data with
      | .error e => .error e
      | .ok data =>
          if m.name ∈ s.recorded then .error (.integrityError "schema_migrations_pkey")
          else .ok ((), { data := data, recorded := s.recorded ++ [m.name] })

end MigrateOp

/-- The database of the runners. -/
abbrev migrations (D : Type) : Interface (MigratedDb D) Exn where
  Op := MigrateOp D
  Res := MigrateOp.Res
  exec := MigrateOp.exec

/-- `_applied`. -/
def appliedNames : Program (migrations D) (List String) := .op (I := migrations D) .applied

/-- The transaction of one file. -/
def applyFile (m : Migration D) : Program (migrations D) Unit := .op (I := migrations D) (.apply m)

/-- The loop of `migrate`: what is done is skipped. -/
def applyPending (done : List String) : List (Migration D) → Program (migrations D) (List String)
  | [] => return []
  | m :: files =>
      if m.name ∈ done then applyPending done files
      else do
        let _ ← applyFile m
        let names ← applyPending done files
        return m.name :: names

/-- `migrate`. -/
def migrate (dir : MigrationsDir D) : Program (migrations D) (List String) := do
  let done ← appliedNames
  applyPending done (discover dir)

/-- `main`: the lines of `--status`, or the names of the files applied. -/
def migrateMain (status : Bool) (dir : MigrationsDir D) : Program (migrations D) (List String) :=
  if (discover dir).isEmpty then .ret []
  else if status then do
    let done ← appliedNames
    return (discover dir).map fun m =>
      (if m.name ∈ done then "applied " else "pending ") ++ m.name
  else migrate dir

/-! ## What is pending -/

/-- The files a database has not recorded, in order. -/
def pending (dir : MigrationsDir D) (recorded : List String) : List (Migration D) :=
  (discover dir).filter fun m => m.name ∉ recorded

/-- The files applied one after the other. -/
def applyAll : List (Migration D) → D → Except Exn D
  | [], data => .ok data
  | m :: files, data => (m.sql data).bind (applyAll files)

section Pending

variable {dir : MigrationsDir D} {recorded : List String}

theorem applyAll_concat (files : List (Migration D)) (m : Migration D) (data : D) :
    applyAll (files ++ [m]) data = (applyAll files data).bind m.sql := by
  induction files generalizing data with
  | nil =>
      simp only [List.nil_append, applyAll, Except.bind]
      cases m.sql data <;> rfl
  | cons m' files ih =>
      simp only [List.cons_append, applyAll]
      cases m'.sql data with
      | error e => rfl
      | ok data => exact ih data

theorem distinct_pending : ((pending dir recorded).map Migration.name).Nodup := by
  have hperm := (List.perm_insertionSort (fun m m' : Migration D => m.name ≤ m'.name)
    dir.files).map Migration.name
  exact (hperm.nodup_iff.2 dir.distinct).sublist (List.filter_sublist.map _)

/-- What is pending behind the first files. -/
theorem pending_append (k : ℕ) :
    pending dir (recorded ++ ((pending dir recorded).take k).map Migration.name) =
      (pending dir recorded).drop k := by
  have hsplit : pending dir (recorded ++ ((pending dir recorded).take k).map Migration.name) =
      (pending dir recorded).filter
        fun m => m.name ∉ ((pending dir recorded).take k).map Migration.name := by
    rw [pending, pending, List.filter_filter]
    refine List.filter_congr fun m _ => ?_
    simp only [List.mem_append, not_or, Bool.decide_and, Bool.and_comm]
  have hdistinct : ((pending dir recorded).map Migration.name).Nodup := distinct_pending
  rw [hsplit]
  rw [← List.take_append_drop k (pending dir recorded), List.map_append] at hdistinct
  conv_lhs =>
    arg 2
    rw [← List.take_append_drop k (pending dir recorded)]
  rw [List.filter_append]
  have htake : ((pending dir recorded).take k).filter
      (fun m => m.name ∉ ((pending dir recorded).take k).map Migration.name) = [] := by
    refine List.filter_eq_nil_iff.2 fun m hm hnot => ?_
    exact of_decide_eq_true hnot (List.mem_map_of_mem hm)
  have hdrop : ((pending dir recorded).drop k).filter
      (fun m => m.name ∉ ((pending dir recorded).take k).map Migration.name) =
        (pending dir recorded).drop k := by
    refine List.filter_eq_self.2 fun m hm => decide_eq_true fun hmem => ?_
    exact List.disjoint_of_nodup_append hdistinct hmem (List.mem_map_of_mem hm)
  rw [htake, hdrop, List.nil_append]

end Pending

/-! ## Where a runner stands -/

/-- Where a runner stands: it has files left, and has applied some. -/
inductive Migrating (D : Type) where
  | reading
  | applying (left : List (Migration D)) (did : List String)
  | failed
  /-- A process that only asks what is recorded. -/
  | asking

section Outlines

variable (dir : MigrationsDir D)

/-- The next call of a runner. -/
def Migrating.Allows : Migrating D → MigrateOp D → Prop
  | .reading, .applied => True
  | .applying (m :: _) _, .apply m' => m' = m
  | .asking, .applied => True
  | _, _ => False

/-- Where a runner stands behind a call. -/
def Migrating.next : Migrating D → (o : MigrateOp D) → Except Exn o.Res → Migrating D
  | .reading, .applied, .ok done => .applying (pending dir done) []
  | .applying (_ :: left) did, .apply m, .ok _ => .applying left (did ++ [m.name])
  | .asking, _, _ => .asking
  | _, _, _ => .failed

/-- How a runner may end. -/
def Migrating.Ends : Migrating D → Except Exn (List String) → Prop
  | .applying [] did, .ok names => names = did
  | .failed, .error _ => True
  | .asking, _ => True
  | _, _ => False

/-- The outline of a runner. -/
def migrateOutline : Outline (migrations D) (Migrating D) (List String) where
  allows := Migrating.Allows
  next := Migrating.next dir
  ends := Migrating.Ends

variable {dir}

theorem holds_applyPending {done : List String} {files : List (Migration D)} {did : List String}
    {f : List String → List String} (hf : ∀ names, f names = did ++ names) :
    (migrateOutline dir).Holds (.applying (files.filter fun m => m.name ∉ done) did)
      ((applyPending done files).bind fun names => .ret (f names)) := by
  induction files generalizing did f with
  | nil => exact (hf []).trans (List.append_nil did)
  | cons m files ih =>
      by_cases hdone : m.name ∈ done
      · have hskip : applyPending done (m :: files) = applyPending done files := if_pos hdone
        rw [hskip, List.filter_cons_of_neg (by simpa using hdone)]
        exact ih hf
      · have hnext : applyPending done (m :: files) = (applyFile m).bind fun _ =>
            (applyPending done files).bind fun names => .ret (m.name :: names) := if_neg hdone
        rw [hnext, List.filter_cons_of_pos (by simpa using hdone)]
        refine ⟨rfl, fun out => ?_⟩
        cases out with
        | error e => exact trivial
        | ok u =>
            show (migrateOutline dir).Holds
              (.applying (files.filter fun m => m.name ∉ done) (did ++ [m.name]))
              (((applyPending done files).bind fun names => .ret (m.name :: names)).bind fun names =>
                .ret (f names))
            rw [Program.bind_assoc]
            exact ih fun names => by rw [hf, List.append_assoc, List.singleton_append]

/-- **A runner follows its outline.** -/
theorem holds_migrate : (migrateOutline dir).Holds .reading (migrate dir) := by
  refine ⟨trivial, fun out => ?_⟩
  cases out with
  | error e => exact trivial
  | ok done =>
      have hloop (done : List String) : (migrateOutline dir).Holds
          (.applying ((discover dir).filter fun m => m.name ∉ done) [])
          ((applyPending done (discover dir)).bind fun names => .ret (id names)) :=
        holds_applyPending fun names => rfl
      have hwhole : (applyPending done (discover dir)).bind (fun names => .ret (id names)) =
          applyPending done (discover dir) := Program.bind_ret _
      have hnamed := hloop done
      rw [hwhole] at hnamed
      exact hnamed

/-- How the processes of a database start: `true` for a runner with `--status`. -/
def startingAt (dir : MigrationsDir D) (status : Bool) : Migrating D :=
  if (discover dir).isEmpty then .applying [] []
  else if status then .asking
  else .reading

theorem holds_migrateMain (status : Bool) :
    (migrateOutline dir).Holds (startingAt dir status) (migrateMain status dir) := by
  rw [startingAt, migrateMain]
  cases (discover dir).isEmpty with
  | true => exact (rfl : ([] : List String) = [])
  | false =>
      cases status with
      | true =>
          refine ⟨trivial, fun out => ?_⟩
          cases out <;> exact trivial
      | false => exact holds_migrate

end Outlines

/-! ## Runs -/

section Runs

variable {P : Type} [DecidableEq P] {dir : MigrationsDir D} {s₀ s s' : MigratedDb D}
  {c : Config (migrations D) P (List String)} {τ : List (Step (migrations D) P (List String))}
  {l : Migrating D}

/-- The first files that were pending are applied, and no other. -/
structure AppliedFirst (dir : MigrationsDir D) (s₀ s : MigratedDb D) (k : ℕ) : Prop where
  bound : k ≤ (pending dir s₀.recorded).length
  recorded : s.recorded =
    s₀.recorded ++ ((pending dir s₀.recorded).take k).map Migration.name
  data : applyAll ((pending dir s₀.recorded).take k) s₀.data = .ok s.data

/-- A runner has found the first files applied up to where it started, and those up to what it has
left are applied. -/
def Migrating.Behind (dir : MigrationsDir D) (s₀ : MigratedDb D) (k : ℕ) : Migrating D → Prop
  | .applying left did => ∃ i j, i ≤ j ∧ j ≤ k ∧ left = (pending dir s₀.recorded).drop j ∧
      did = (((pending dir s₀.recorded).drop i).take (j - i)).map Migration.name
  | _ => True

theorem Migrating.Behind.mono {k k' : ℕ} (h : l.Behind dir s₀ k) (hle : k ≤ k') :
    l.Behind dir s₀ k' := by
  cases l with
  | applying left did =>
      obtain ⟨i, j, hij, hjk, hleft, hdid⟩ := h
      exact ⟨i, j, hij, hjk.trans hle, hleft, hdid⟩
  | _ => trivial

/-- The file at one place of a list. -/
theorem drop_eq_cons {α : Type} {files left : List α} {m : α} {j : ℕ} (h : m :: left = files.drop j) :
    ∃ hj : j < files.length, m = files[j] ∧ left = files.drop (j + 1) := by
  have hj : j < files.length := by
    by_contra hnot
    rw [List.drop_eq_nil_of_le (Nat.not_lt.1 hnot)] at h
    cases h
  rw [List.drop_eq_getElem_cons hj] at h
  obtain ⟨hm, hleft⟩ := List.cons.inj h
  exact ⟨hj, hm, hleft⟩

/-- **A call of a runner** applies the first file that is left, or changes nothing. -/
theorem appliedFirst_step {k : ℕ} {o : MigrateOp D} {out : Except Exn o.Res}
    (h : AppliedFirst dir s₀ s k) (hl : l.Behind dir s₀ k) (hallow : l.Allows o)
    (hout : (∃ v, out = .ok v ∧ o.exec s = .ok (v, s')) ∨ ∃ e, out = .error e ∧ s' = s) :
    ∃ k', k ≤ k' ∧ AppliedFirst dir s₀ s' k' ∧ (l.next dir o out).Behind dir s₀ k' := by
  rcases hout with ⟨v, rfl, hexec⟩ | ⟨e, rfl, rfl⟩
  · cases o with
    | applied =>
        obtain ⟨rfl, rfl⟩ := Prod.mk.inj (Except.ok.inj hexec)
        refine ⟨k, le_refl k, h, ?_⟩
        cases l with
        | reading =>
            refine ⟨k, k, le_refl k, le_refl k, ?_, ?_⟩
            · rw [h.recorded]
              exact pending_append k
            · rw [Nat.sub_self, List.take_zero]
              rfl
        | applying left did => cases left <;> exact hallow.elim
        | failed => exact hallow.elim
        | asking => trivial
    | apply m =>
        cases l with
        | applying left did =>
            cases left with
            | nil => exact hallow.elim
            | cons m' left =>
                obtain rfl : m = m' := hallow
                obtain ⟨i, j, hij, hjk, hleft, rfl⟩ := hl
                obtain ⟨hj, rfl, rfl⟩ := drop_eq_cons hleft
                -- a file that is recorded would break the primary key
                have hlast : j = k := by
                  by_contra hne
                  have hmem : ((pending dir s₀.recorded)[j]).name ∈ s.recorded := by
                    rw [h.recorded]
                    refine List.mem_append_right _ (List.mem_map_of_mem ?_)
                    rw [List.mem_take_iff_getElem]
                    exact ⟨j, by omega, rfl⟩
                  simp only [MigrateOp.exec] at hexec
                  split at hexec
                  · cases hexec
                  · rw [if_pos hmem] at hexec
                    cases hexec
                subst hlast
                simp only [MigrateOp.exec] at hexec
                split at hexec
                · cases hexec
                · rename_i data hsql
                  split at hexec
                  · cases hexec
                  · obtain ⟨-, rfl⟩ := Prod.mk.inj (Except.ok.inj hexec)
                    have htake : (pending dir s₀.recorded).take (j + 1) =
                        (pending dir s₀.recorded).take j ++ [(pending dir s₀.recorded)[j]] :=
                      List.take_succ_eq_append_getElem hj
                    refine ⟨j + 1, Nat.le_succ j, ⟨hj, ?_, ?_⟩, i, j + 1, by omega, le_refl _, rfl, ?_⟩
                    · rw [htake, List.map_append, ← List.append_assoc, ← h.recorded]
                      rfl
                    · rw [htake, applyAll_concat, h.data]
                      exact hsql
                    · have hstep : j + 1 - i = j - i + 1 := by omega
                      have hget : ((pending dir s₀.recorded).drop i)[j - i]? =
                          some (pending dir s₀.recorded)[j] := by
                        rw [List.getElem?_drop, Nat.add_sub_cancel' hij, List.getElem?_eq_getElem hj]
                      rw [hstep, List.take_add_one, hget, List.map_append]
                      rfl
        | reading => exact hallow.elim
        | failed => exact hallow.elim
        | asking => exact hallow.elim
  · refine ⟨k, le_refl k, h, ?_⟩
    cases l with
    | applying left did => cases o <;> cases left <;> trivial
    | _ => cases o <;> trivial

/-- Only a process that asks goes on asking. -/
theorem eq_asking_of_next {o : MigrateOp D} {out : Except Exn o.Res}
    (h : l.next dir o out = .asking) : l = .asking := by
  cases l with
  | asking => rfl
  | reading => cases o <;> cases out <;> cases h
  | applying left did => cases left <;> cases o <;> cases out <;> cases h
  | failed => cases o <;> cases out <;> cases h

theorem behind_startingAt (status : Bool) : (startingAt dir status).Behind dir s₀ 0 := by
  unfold startingAt
  split
  · rename_i hempty
    have hpending : pending dir s₀.recorded = [] := by
      rw [pending, List.isEmpty_iff.1 hempty, List.filter_nil]
    exact ⟨0, 0, le_refl 0, le_refl 0, by rw [hpending]; rfl, rfl⟩
  · split <;> trivial

theorem status_of_startingAt {status : Bool} (h : startingAt dir status = .asking) :
    status = true := by
  unfold startingAt at h
  split at h
  · cases h
  · split at h
    · assumption
    · cases h

/-- Where one process of a run stands, with the files applied so far. -/
structure RunnerAt (dir : MigrationsDir D) (s₀ : MigratedDb D) (k : ℕ) (status : Bool)
    (program : Program (migrations D) (List String)) (l : Migrating D) : Prop where
  behind : l.Behind dir s₀ k
  asks : l = .asking → status = true
  follows : (migrateOutline dir).Holds l program

/-- **The rule of a run**: what is applied, and where every runner stands. -/
theorem appliedFirst_of_reach {c' : Config (migrations D) P (List String)} {status : P → Bool}
    (hrun : Reach c τ c') (hstart : ∀ p, c.pool p = migrateMain (status p) dir) :
    ∃ k, AppliedFirst dir c.state c'.state k ∧ ∃ ls : P → Migrating D,
      ∀ p, RunnerAt dir c.state k (status p) (c'.pool p) (ls p) := by
  refine hrun.induct (motive := fun _ c' => ∃ k, AppliedFirst dir c.state c'.state k ∧
    ∃ ls : P → Migrating D, ∀ p, RunnerAt dir c.state k (status p) (c'.pool p) (ls p)) ?_ ?_
  · refine ⟨0, ⟨Nat.zero_le _, ?_, rfl⟩, fun p => startingAt dir (status p), fun p => ?_⟩
    · rw [List.take_zero, List.map_nil, List.append_nil]
    · exact ⟨behind_startingAt _, status_of_startingAt, hstart p ▸ holds_migrateMain (status p)⟩
  · rintro τ₁ st - hf ⟨k, hfirst, ls, hls⟩
    obtain ⟨hallow, hholds⟩ := Outline.holds_step hf fun p => (hls p).follows
    obtain ⟨k', hle, hfirst', hbehind⟩ :=
      appliedFirst_step hfirst (hls st.pid).behind hallow hf.outcome
    refine ⟨k', hfirst', (migrateOutline dir).advance ls st, fun p => ⟨?_, ?_, hholds p⟩⟩
    · by_cases hp : p = st.pid
      · subst hp
        rw [Outline.advance_self]
        exact hbehind
      · rw [Outline.advance_ne _ _ _ hp]
        exact (hls p).behind.mono hle
    · by_cases hp : p = st.pid
      · subst hp
        rw [Outline.advance_self]
        exact fun h => (hls st.pid).asks (eq_asking_of_next h)
      · rw [Outline.advance_ne _ _ _ hp]
        exact (hls p).asks

/-- **Migrations are applied in order, once each.** In every run of any number of runners over one
directory, with failures at any call and runners that die anywhere, the names recorded since the
start are those of the first files that were pending, in the order of their names, and the database
is what these files make of the first one, each applied once. A runner that returns has left no file
pending, and names the last of them. -/
theorem prefix_of_reach {c' : Config (migrations D) P (List String)} {status : P → Bool}
    (hrun : Reach c τ c') (hstart : ∀ p, c.pool p = migrateMain (status p) dir) :
    ∃ k, AppliedFirst dir c.state c'.state k ∧
      ∀ p names, status p = false → c'.pool p = .ret names →
        k = (pending dir c.state.recorded).length ∧
          ∃ i, names = ((pending dir c.state.recorded).drop i).map Migration.name := by
  obtain ⟨k, hfirst, ls, hls⟩ := appliedFirst_of_reach hrun hstart
  refine ⟨k, hfirst, fun p names hstatus hret => ?_⟩
  obtain ⟨hbehind, hasks, hends⟩ := hls p
  rw [hret] at hends
  cases hl : ls p with
  | asking =>
      rw [hasks hl] at hstatus
      cases hstatus
  | reading =>
      rw [hl] at hends
      exact hends.elim
  | failed =>
      rw [hl] at hends
      exact hends.elim
  | applying left did =>
      rw [hl] at hends hbehind
      cases left with
      | cons m left => exact hends.elim
      | nil =>
          obtain rfl : names = did := hends
          obtain ⟨i, j, hij, hjk, hleft, rfl⟩ := hbehind
          have hall : (pending dir c.state.recorded).length ≤ j := List.drop_eq_nil_iff.1 hleft.symm
          refine ⟨le_antisymm hfirst.bound (hall.trans hjk), i, ?_⟩
          rw [List.take_of_length_le]
          rw [List.length_drop]
          omega

end Runs

/-! ## Three runners -/

section Sample

/-- A file that builds a table on top of the ones it needs. -/
def buildsTable (name table : String) (needs : List String) : Migration (List String) where
  name := name
  sql := fun tables =>
    if needs.all tables.contains then .ok (tables ++ [table])
    else .error (.dataError "relation does not exist")

/-- A directory of two files, as the file system lists them. -/
def twoFiles : MigrationsDir (List String) where
  files := [buildsTable "0002_events.sql" "events" ["tasks"], buildsTable "0001_tasks.sql" "tasks" []]
  distinct := by decide

/-- A runner. -/
inductive Runner where
  | first
  | second
  | third
deriving DecidableEq

/-- Three runners over a new database. -/
def threeRunners : Config (migrations (List String)) Runner (List String) :=
  ⟨⟨[], []⟩, fun _ => migrateMain false twoFiles⟩

/-- The first and the second find nothing done; the first applies a file and dies, the second fails
at the same file, and the third goes on. -/
def deathAndRace : List (Choice Runner Exn) :=
  [(.first, none), (.second, none), (.first, none), (.second, none), (.third, none), (.third, none)]

theorem prefix_of_reach_deathAndRace :
    (threeRunners.run deathAndRace).state.data = ["tasks", "events"] ∧
      (threeRunners.run deathAndRace).pool .third = .ret ["0002_events.sql"] ∧
      ∃ k, AppliedFirst twoFiles ⟨[], []⟩ (threeRunners.run deathAndRace).state k ∧
        k = (pending twoFiles []).length := by
  have hthird : (threeRunners.run deathAndRace).pool .third = .ret ["0002_events.sql"] := rfl
  have hstart : ∀ p, threeRunners.pool p = migrateMain (Function.const Runner false p) twoFiles :=
    fun _ => rfl
  obtain ⟨k, hfirst, hreturned⟩ :=
    prefix_of_reach (Reach.of_run threeRunners deathAndRace) hstart
  exact ⟨by decide, hthird, k, hfirst, (hreturned .third _ rfl hthird).1⟩

end Sample

end AiStudio.Runtime
