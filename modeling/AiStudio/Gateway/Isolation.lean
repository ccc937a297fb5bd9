import AiStudio.Gateway.Requests
import AiStudio.Runtime.Origins

/-!
# Write isolation

What the requests of one token write, beside anything else that runs. `mayWrite` sums up the
statements of a request, given the task it has found or made its own; `writes_isolated` is for
every run of any number of requests and other processes. The events of a refused request, and
those of an access without a workstream, are the gateway's own.
-/

set_option autoImplicit false

namespace AiStudio.Gateway

open AiStudio.Data AiStudio.Concurrency AiStudio.Runtime

/-! ## What a request may write -/

/-- The events of the gateway itself. -/
def IsAudit : SinkPayload → Prop
  | .gatewayAccess .. => True
  | .gatewayDenied .. => True
  | _ => False

/-- What a request has in hand: the task it has grabbed or found to be its token's, and the
workstreams of the rows its writes returned. -/
structure Hand where
  own : Option Uuid := none
  seen : List Workstream := []

section Token

variable (t : Token)

/-- An audit event of the gateway, or one of a workstream the token allows. -/
def Logs (workstream : Workstream) : Prop :=
  workstream = gatewayWorkstream ∨ t.allowsWorkstream (some workstream.name) = true

/-- The statements of a request of the token. -/
def mayWrite (hand : Hand) : StoreOp → Prop
  | .getTask _ => True
  | .emit _ workstream payload => IsAudit payload ∧ (Logs t workstream ∨ workstream ∈ hand.seen)
  | .enqueueTask _ a => t.allowsWorkstream (some a.workstream) = true
  | .grabTask a _ => a.workerId = t.identity ∧ a.assignee = some .offhost ∧
      t.allowsWorkstream a.workstream = true
  | .heartbeat id workerId => hand.own = some id ∧ workerId = t.identity
  | .transition id _ _ => hand.own = some id
  | _ => False

/-- The task is held by the token, in a workstream the token allows. -/
abbrev Holds (row : Task) : Prop :=
  row.claimedBy = some t.identity ∧ t.allowsWorkstream (some row.workstream.name) = true

/-- What a request has in hand after a statement. -/
def nextHand (hand : Hand) : (o : StoreOp) → Except Exn o.Res → Hand
  | .getTask id, .ok (some row) => if Holds t row then { hand with own := some id } else hand
  | .grabTask .., .ok (some (id, row)) => ⟨some id, row.workstream :: hand.seen⟩
  | .transition .., .ok (some row) => { hand with seen := row.workstream :: hand.seen }
  | .enqueueTask .., .ok row => { hand with seen := row.workstream :: hand.seen }
  | _, _ => hand

/-- The outline of a program of the token's over the database. -/
def handOutline {α : Type} (Q : Hand → Except Exn α → Prop) : Outline database Hand α where
  allows := mayWrite t
  next := nextHand t
  ends := Q

/-- The outline of a request of the token's. -/
def requestOutline (server : Server) {α : Type} (Q : Hand → Except Exn α → Prop) :
    Outline (service server) Hand α where
  allows hand
    | .inl o => mayWrite t hand o
    | .inr _ => True
  next hand
    | .inl o => nextHand t hand o
    | .inr _ => fun _ => hand
  ends := Q

end Token

/-! ## The endpoints -/

section Endpoints

variable {t : Token} {server : Server} {α β : Type} {hand : Hand}

/-- The allowance the gate gives a token. -/
structure Admitted (t : Token) (allowed : Allowed) : Prop where
  identity : allowed.identity = t.identity
  workstreams : allowed.workstreams = t.workstreams

theorem Admitted.allows {allowed : Allowed} (h : Admitted t allowed) (workstream : String) :
    allowed.allowsWorkstream workstream = t.allowsWorkstream (some workstream) := by
  simp [Allowed.allowsWorkstream, Token.allowsWorkstream, h.workstreams]

/-- An audit of a workstream the token allows, or of none. -/
theorem logs_auditWorkstream {workstream : Option String}
    (h : workstream = none ∨ t.allowsWorkstream workstream = true) :
    Logs t (auditWorkstream workstream) := by
  cases workstream with
  | none => exact .inl rfl
  | some name =>
      unfold auditWorkstream
      by_cases hname : name = ""
      · exact .inl (dif_pos hname)
      · refine .inr ?_
        simp only [hname, dite_false]
        simpa using h

/-- A statement that keeps the task. -/
def Plain (t : Token) (server : Server) : (service server).Op → Prop
  | .inl (.emit _ workstream payload) => IsAudit payload ∧ Logs t workstream
  | .inl _ => False
  | .inr _ => True

theorem plain_audit {taskId : Option Uuid} {workstream : Option String} {payload : SinkPayload}
    (hpayload : IsAudit payload) (h : workstream = none ∨ t.allowsWorkstream workstream = true) :
    (audit taskId workstream payload).inl.Only (Plain t server) := by
  have honly : (audit taskId workstream payload).Only fun o : StoreOp =>
      ∃ taskId, o = .emit taskId (auditWorkstream workstream) payload :=
    (Program.Only.op ⟨taskId, rfl⟩).tryCatch fun _ => .ret ()
  refine honly.inl ?_
  rintro _ ⟨taskId, rfl⟩
  exact ⟨hpayload, logs_auditWorkstream h⟩

theorem plain_gatewayCall (o : GatewayOp) :
    (@gatewayCall server o).Only (Plain t server) := .op trivial

theorem plain_auditDenied (denied : Denied) (verb scope : String) :
    (@auditDenied server denied verb scope).Only (Plain t server) := by
  unfold auditDenied
  cases denied.identity with
  | none => exact .ret ()
  | some identity =>
      refine .tryCatch (.bind (plain_gatewayCall _) fun _ => ?_) fun _ => .ret ()
      exact plain_audit trivial (.inl rfl)

theorem plain_openStore : (@openStore server).Only (Plain t server) :=
  (plain_gatewayCall _).tryCatch fun _ => .throw _

theorem plain_auditAccess {allowed : Allowed} {verb scope : String} {taskId : Option Uuid}
    {workstream : Option String} (h : workstream = none ∨ t.allowsWorkstream workstream = true) :
    (@auditAccess server allowed verb scope taskId workstream).Only (Plain t server) :=
  plain_audit trivial h

variable {Q : Hand → Except Exn β → Prop}

/-- A part of plain statements. -/
theorem holds_plain_bind {p : Serving server α} {f : α → Serving server β}
    (h : p.Only (Plain t server)) (hf : ∀ a, (requestOutline t server Q).Holds hand (f a))
    (hQ : ∀ e, Q hand (.error e)) : (requestOutline t server Q).Holds hand (p.bind f) := by
  refine Outline.holds_only_bind h ?_ hf hQ
  intro o ho
  rcases o with o | o
  · cases o with
    | emit taskId workstream payload => exact ⟨⟨ho.1, .inl ho.2⟩, fun _ => rfl⟩
    | _ => exact ho.elim
  · exact ⟨trivial, fun _ => rfl⟩

/-- **The gate** lets the token on with what it is admitted to. -/
theorem holds_gate {a : AuthArgs} {verb : String} {now : ℚ}
    {k : Token × Allowed → Serving server β}
    (hid : server.tokens.identify server.digest a.authorization = .ok t)
    (hk : ∀ allowed, a.admission t = .ok allowed → (requestOutline t server Q).Holds hand (k (t, allowed)))
    (hQ : ∀ e, Q hand (.error e)) :
    (requestOutline t server Q).Holds hand ((gate verb a now).bind k) := by
  unfold gate
  rw [Program.bind_assoc]
  refine ⟨trivial, fun r => ?_⟩
  cases r with
  | error e => exact hQ e
  | ok decision =>
      have hdenied : ∀ denied, (requestOutline t server Q).Holds hand
          ((goOn verb a.scopeText (.error denied)).bind k) := by
        intro denied
        unfold goOn
        rw [Program.bind_assoc]
        exact holds_plain_bind (plain_auditDenied _ _ _) (fun _ => hQ _) hQ
      cases decision with
      | unknown denied h => exact hdenied _
      | limited token wait h => exact hdenied _
      | refused token denied h h' => exact hdenied _
      | admitted token allowed h h' =>
          obtain rfl : token = t := Except.ok.inj (h.symm.trans hid)
          exact hk allowed h'

/-! ### The writes -/

section Writes

variable {Q : Hand → Except Exn β → Prop} {allowed : Allowed}

/-- A statement of a program of the token's. -/
theorem holds_call_bind {o : StoreOp} {f : o.Res → Process β} (ho : mayWrite t hand o)
    (hf : ∀ v, (handOutline t Q).Holds (nextHand t hand o (.ok v)) (f v))
    (hQ : ∀ hand e, Q hand (.error e)) : (handOutline t Q).Holds hand ((call o).bind f) := by
  refine ⟨ho, fun r => ?_⟩
  cases r with
  | ok v => exact hf v
  | error e => exact hQ _ e

/-- An audit keeps what the request has. -/
theorem holds_audit_bind {taskId : Option Uuid} {workstream : Option String} {payload : SinkPayload}
    {f : Unit → Process β} (hpayload : IsAudit payload)
    (h : Logs t (auditWorkstream workstream) ∨ auditWorkstream workstream ∈ hand.seen)
    (hf : (handOutline t Q).Holds hand (f ())) :
    (handOutline t Q).Holds hand ((audit taskId workstream payload).bind f) := by
  refine ⟨⟨hpayload, h⟩, fun r => ?_⟩
  cases r with
  | ok v => exact hf
  | error e => exact hf

theorem holds_deny_bind {verb scope reason : String} {f : α → Process β}
    (hQ : ∀ hand e, Q hand (.error e)) :
    (handOutline t Q).Holds hand ((deny allowed verb scope reason : Process α).bind f) := by
  unfold deny
  rw [Program.bind_eq, Program.bind_assoc]
  exact holds_audit_bind trivial (.inl (.inl rfl)) (hQ hand _)

/-- **The claim-ownership gate** lets on with a task the token holds. -/
theorem holds_heldTask {id : Uuid} {verb : String} {f : Task → Process β}
    (hallowed : Admitted t allowed)
    (hf : ∀ hand row, hand.own = some id → Holds t row → (handOutline t Q).Holds hand (f row))
    (hQ : ∀ hand e, Q hand (.error e)) :
    (handOutline t Q).Holds hand ((heldTask id allowed verb).bind f) := by
  unfold heldTask
  rw [Program.bind_eq, Program.bind_assoc]
  refine holds_call_bind trivial (fun found => ?_) hQ
  cases found with
  | none => exact hQ hand _
  | some row =>
      cases hvisible : allowed.allowsWorkstream row.workstream.name with
      | false =>
          simp only [hvisible, Bool.not_false, if_true]
          exact holds_deny_bind hQ
      | true =>
          by_cases howner : row.claimedBy = some allowed.identity
          · have hholds : Holds t row :=
              ⟨hallowed.identity ▸ howner, hallowed.allows _ ▸ hvisible⟩
            simp only [hvisible, howner, Bool.not_true, Bool.false_eq_true, if_false, ne_eq,
              not_true_eq_false, nextHand, if_pos hholds]
            exact hf _ row rfl hholds
          · simp only [hvisible, howner, Bool.not_true, Bool.false_eq_true, if_false, ne_eq,
              not_false_eq_true, if_true]
            exact holds_deny_bind hQ

/-- The audit of a task the token holds. -/
theorem logs_of_holds {row : Task} (h : Holds t row) :
    Logs t (auditWorkstream (some row.workstream.name)) :=
  logs_auditWorkstream (.inr h.2)

theorem holds_heartbeatTask {Q : Hand → Except Exn Task → Prop} {id : Uuid}
    (hallowed : Admitted t allowed) (hret : ∀ hand row, Q hand (.ok row))
    (hQ : ∀ hand e, Q hand (.error e)) :
    (handOutline t Q).Holds hand (heartbeatTask id allowed) := by
  refine holds_heldTask hallowed (fun hand row hown hrow => ?_) hQ
  refine holds_call_bind ⟨hown, hallowed.identity⟩ (fun beat => ?_) hQ
  cases beat with
  | none => exact hQ _ _
  | some beat => exact holds_audit_bind trivial (.inl (logs_of_holds hrow)) (hret _ beat)

/-- The hops of a completion are of the task. -/
theorem holds_completeTask_bind {id : Uuid} {a : CompleteArgs} {f : Option Task → Process β}
    (hown : hand.own = some id)
    (hf : ∀ hand r, hand.own = some id → (handOutline t Q).Holds hand (f r))
    (hQ : ∀ hand e, Q hand (.error e)) :
    (handOutline t Q).Holds hand ((completeTask id a).bind f) := by
  have hnext : ∀ (hand : Hand) (r : Except Exn (Option Task)) (target : TaskStatus)
      (args : TransitionArgs), hand.own = some id →
      (nextHand t hand (.transition id target args) r).own = some id := by
    intro hand r target args hown
    rcases r with e | (_ | _) <;> exact hown
  have hhop : ∀ (hand : Hand) (target : TaskStatus) (args : TransitionArgs), hand.own = some id →
      (handOutline t Q).Holds hand ((call (.transition id target args)).bind f) := by
    intro hand target args hown
    exact holds_call_bind hown (fun v => hf _ v (hnext hand (.ok v) target args hown)) hQ
  obtain ⟨result, status, spentTokens, expectedFrom, force⟩ := a
  cases status with
  | merged =>
      refine ⟨hown, fun submitted => ?_⟩
      rcases submitted with e | (_ | _)
      · exact hQ _ e
      · exact hf _ none hown
      · refine ⟨hown, fun approved => ?_⟩
        rcases approved with e | (_ | _)
        · exact hQ _ e
        · exact hf _ none hown
        · exact hhop _ _ _ hown
  | abandoned => exact hhop hand _ _ hown
  | _ => exact hQ _ _

theorem holds_complete {Q : Hand → Except Exn Task → Prop} {id : Uuid}
    {req : CompleteRequest} (hallowed : Admitted t allowed)
    (hret : ∀ hand row, Q hand (.ok row)) (hQ : ∀ hand e, Q hand (.error e)) :
    (handOutline t Q).Holds hand (complete id req allowed) := by
  refine holds_heldTask hallowed (fun hand row hown hrow => ?_) hQ
  refine holds_completeTask_bind hown (fun hand finished _ => ?_) hQ
  cases finished with
  | none => exact hQ _ _
  | some finished => exact holds_audit_bind trivial (.inl (logs_of_holds hrow)) (hret _ finished)

theorem auditWorkstream_name (workstream : Workstream) :
    auditWorkstream (some workstream.name) = workstream := by
  unfold auditWorkstream
  exact dif_neg workstream.nonempty

/-- **A claim** ends with the task it grabbed. -/
theorem holds_claim {Q : Hand → Except Exn (Option (Uuid × Task)) → Prop}
    {agentType : Option String} {locked : List Uuid} (hallowed : Admitted t allowed)
    (hworkstream : t.allowsWorkstream allowed.workstream = true)
    (hret : ∀ hand id row, hand.own = some id → Q hand (.ok (some (id, row))))
    (hnone : ∀ hand, Q hand (.ok none)) (hQ : ∀ hand e, Q hand (.error e)) :
    (handOutline t Q).Holds hand (claim allowed agentType locked) := by
  have haudit : ∀ (hand : Hand) (id : Uuid) (row : Task), hand.own = some id →
      row.workstream ∈ hand.seen →
      (handOutline t Q).Holds hand ((audit (some id) (some row.workstream.name)
        (.gatewayAccess allowed.identity "claim" "claim" 200 none)).bind fun _ =>
          .ret (some (id, row))) := by
    intro hand id row hown hseen
    refine holds_audit_bind trivial (.inr ?_) (hret hand id row hown)
    rwa [auditWorkstream_name]
  refine ⟨⟨hallowed.identity, rfl, hworkstream⟩, fun grabbed => ?_⟩
  rcases grabbed with e | (_ | ⟨id, row⟩)
  · exact hQ _ e
  · exact holds_audit_bind trivial (.inl (logs_auditWorkstream (.inr hworkstream))) (hnone _)
  · refine ⟨rfl, fun started => ?_⟩
    rcases started with e | (_ | row')
    · exact hQ _ e
    · exact haudit _ id row rfl List.mem_cons_self
    · exact haudit _ id row' rfl List.mem_cons_self

/-- **An enqueue** is in the workstream the request resolved to. -/
theorem holds_enqueue {Q : Hand → Except Exn Task → Prop} {newId : Uuid} {settings : Settings}
    {req : EnqueueRequest} (hworkstream : t.allowsWorkstream allowed.workstream = true)
    (hret : ∀ hand row, Q hand (.ok row)) (hQ : ∀ hand e, Q hand (.error e)) :
    (handOutline t Q).Holds hand (enqueue newId settings allowed req) := by
  unfold enqueue
  cases hws : allowed.workstream with
  | none => exact hQ _ _
  | some workstream =>
      have hallows : t.allowsWorkstream (some workstream) = true := hws ▸ hworkstream
      refine Outline.holds_ite (fun _ => hQ _ _) fun _ => ⟨hallows, fun r => ?_⟩
      cases r with
      | ok row =>
          refine holds_audit_bind trivial (.inr ?_) (hret _ row)
          rw [auditWorkstream_name]
          exact List.mem_cons_self
      | error e => cases e <;> exact hQ _ _

end Writes

/-! ### Every request -/

section Serve

variable {a : AuthArgs} {allowed : Allowed}

theorem admitted_of_admission (h : a.admission t = .ok allowed) : Admitted t allowed := by
  obtain ⟨-, -, rfl⟩ := AuthArgs.admission_eq_ok_iff.1 h
  exact ⟨rfl, rfl⟩

/-- A request that needs a workstream goes on with one the token allows. -/
theorem allows_of_admission (h : a.admission t = .ok allowed) (hneeded : a.workstreamOptional = false) :
    t.allowsWorkstream allowed.workstream = true := by
  obtain ⟨-, hallows, rfl⟩ := AuthArgs.admission_eq_ok_iff.1 h
  exact hallows.resolve_left (by rw [hneeded]; exact Bool.false_ne_true)

theorem defaultWorkstream_cases (t : Token) : t.defaultWorkstream = none ∨
    t.allowsWorkstream t.defaultWorkstream = true := by
  unfold Token.defaultWorkstream Token.allowsWorkstream
  rcases t.workstreams with _ | ⟨workstream, _ | ⟨workstream', rest⟩⟩
  · exact .inl rfl
  · exact .inr (by simp)
  · exact .inl rfl

/-- The workstream a request is logged under is one the token allows, if any. -/
theorem logged_of_admission (h : a.admission t = .ok allowed) :
    allowed.workstream = none ∨ t.allowsWorkstream allowed.workstream = true := by
  obtain ⟨-, hoptional | hallows, rfl⟩ := AuthArgs.admission_eq_ok_iff.1 h
  · rw [Bool.and_eq_true, Option.isNone_iff_eq_none] at hoptional
    change t.resolve a.workstream = none ∨ t.allowsWorkstream (t.resolve a.workstream) = true
    rw [hoptional.2]
    exact defaultWorkstream_cases t
  · exact .inr hallows

variable {Q : Hand → Except Exn β → Prop}

/-- A part over the database. -/
theorem holds_inl_bind {R : Hand → Except Exn α → Prop} {p : Process α}
    {f : α → Serving server β} (h : (handOutline t R).Holds hand p)
    (hret : ∀ hand a, R hand (.ok a) → (requestOutline t server Q).Holds hand (f a))
    (hQ : ∀ hand e, Q hand (.error e)) :
    (requestOutline t server Q).Holds hand (p.inl.bind f) :=
  Outline.holds_bind (O := requestOutline t server R) (fun _ _ h => h) (fun _ _ _ => rfl) hret
    (fun hand e _ => hQ hand e)
    (Outline.holds_inl (fun _ _ h => h) (fun _ _ _ => rfl) (fun _ _ h => h) h)

theorem holds_serveList {verb : String} {authorization workstream : Option String} {now : ℚ}
    {query : Option String → Serving server α} {f : α → Serving server β}
    (hid : server.tokens.identify server.digest authorization = .ok t)
    (hquery : ∀ workstream, (query workstream).Only (Plain t server))
    (hf : ∀ rows, (requestOutline t server Q).Holds hand (f rows))
    (hQ : ∀ e, Q hand (.error e)) :
    (requestOutline t server Q).Holds hand
      ((serveList verb authorization workstream now query).bind f) := by
  unfold serveList
  rw [Program.bind_eq, Program.bind_assoc]
  refine holds_gate hid (fun allowed hadmit => ?_) hQ
  have hlogged := logged_of_admission hadmit
  refine holds_plain_bind (.bind plain_openStore fun _ => ?_) hf hQ
  exact .bind (hquery _) fun _ => .bind (plain_auditAccess hlogged) fun _ => .ret _

/-- A reply that names a claimed task is of the task in hand. -/
def NamesOwn (hand : Hand) (r : Except Exn Response) : Prop :=
  ∀ id row, r = .ok (.claimed (some (id, row))) → hand.own = some id

theorem namesOwn_error (hand : Hand) (e : Exn) : NamesOwn hand (.error e) := by
  rintro id row ⟨⟩

/-- **A request keeps to what its token may write.** -/
theorem holds_serve {request : Request} {authorization : Option String} {now : ℚ}
    (hid : server.tokens.identify server.digest authorization = .ok t) :
    (requestOutline t server NamesOwn).Holds {} (serve request authorization now) := by
  have herror : ∀ e, NamesOwn {} (.error e) := namesOwn_error {}
  have hother : ∀ (hand : Hand) (response : Response),
      (∀ task, response ≠ .claimed task) → NamesOwn hand (.ok response) := by
    intro hand response hne id row h
    exact absurd (Except.ok.inj h) (hne _)
  cases request with
  | health => exact hother _ _ (by simp)
  | whoami => exact holds_gate hid (fun allowed _ => hother _ _ (by simp)) herror
  | listReady workstream limit =>
      simp only [serve, Program.bind_eq]
      refine holds_serveList hid (fun _ => ?_) (fun rows => ?_) herror
      · exact plain_gatewayCall _
      · exact hother _ _ (by simp)
  | listWaiting workstream =>
      simp only [serve, Program.bind_eq]
      refine holds_serveList hid (fun _ => ?_) (fun rows => ?_) herror
      · exact plain_gatewayCall _
      · exact hother _ _ (by simp)
  | listReview workstream limit =>
      simp only [serve, Program.bind_eq]
      refine holds_serveList hid (fun _ => ?_) (fun rows => ?_) herror
      · exact plain_gatewayCall _
      · exact hother _ _ (by simp)
  | agentsStatus workstream =>
      simp only [serve, Program.bind_eq]
      refine holds_serveList hid (fun _ => ?_) (fun rows => ?_) herror
      · exact plain_gatewayCall _
      · exact hother _ _ (by simp)
  | readTask id =>
      refine holds_gate hid (fun allowed hadmit => ?_) herror
      have hadmitted := admitted_of_admission hadmit
      refine holds_plain_bind plain_openStore (fun _ => ?_) herror
      refine ⟨trivial, fun found => ?_⟩
      rcases found with e | (_ | row)
      · exact namesOwn_error _ e
      · exact namesOwn_error _ _
      · change (requestOutline t server NamesOwn).Holds _ (if _ then _ else _)
        refine Outline.holds_ite (fun _ => ?_) fun hvisible => ?_
        · refine ⟨⟨trivial, .inl (.inl rfl)⟩, fun r => ?_⟩
          cases r <;> exact namesOwn_error _ _
        · refine holds_plain_bind (plain_auditAccess (.inr ?_)) (fun _ => hother _ _ (by simp))
            (namesOwn_error _)
          rw [← hadmitted.allows]
          simpa using hvisible
  | enqueue newId workstream req =>
      refine holds_gate hid (fun allowed hadmit => ?_) herror
      have hopen : (@EnqueueRequest.openStore server req allowed).Only (Plain t server) :=
        .ite (fun _ => plain_openStore) fun _ => .ret _
      refine holds_plain_bind hopen (fun _ => ?_) herror
      exact holds_inl_bind (R := fun _ _ => True)
        (holds_enqueue (allows_of_admission hadmit rfl) (fun _ _ => trivial) fun _ _ => trivial)
        (fun hand _ _ => hother _ _ (by simp)) namesOwn_error
  | claim workstream agentType locked =>
      refine holds_gate hid (fun allowed hadmit => ?_) herror
      refine holds_plain_bind plain_openStore (fun _ => ?_) herror
      refine holds_inl_bind (R := fun hand r => ∀ id row, r = .ok (some (id, row)) →
        hand.own = some id) (holds_claim (admitted_of_admission hadmit) (allows_of_admission hadmit rfl)
          ?_ ?_ ?_) ?_ namesOwn_error
      · rintro hand id row hown _ _ ⟨⟩
        exact hown
      · rintro hand id row ⟨⟩
      · rintro hand e id row ⟨⟩
      · intro hand task hown id row h
        exact hown id row (congrArg Except.ok (Response.claimed.inj (Except.ok.inj h)))
  | studioStatus =>
      refine holds_gate hid (fun allowed hadmit => ?_) herror
      refine holds_plain_bind plain_openStore (fun _ => ?_) herror
      refine holds_plain_bind (plain_gatewayCall _) (fun _ => ?_) herror
      exact holds_plain_bind (plain_auditAccess (logged_of_admission hadmit))
        (fun _ => hother _ _ (by simp)) herror
  | eventsRecent limit workstream taskId =>
      refine holds_gate hid (fun allowed hadmit => ?_) herror
      refine holds_plain_bind plain_openStore (fun _ => ?_) herror
      cases eventTask taskId with
      | error e => exact herror e
      | ok taskId =>
          refine holds_plain_bind (plain_gatewayCall _) (fun _ => ?_) herror
          exact holds_plain_bind (plain_auditAccess (logged_of_admission hadmit))
            (fun _ => hother _ _ (by simp)) herror
  | agentsEnv =>
      refine holds_gate hid (fun allowed hadmit => ?_) herror
      refine holds_plain_bind (.tryCatch ?_ fun _ => .ret ()) (fun _ => hother _ _ (by simp)) herror
      exact .bind plain_openStore fun _ => plain_auditAccess (.inl rfl)
  | heartbeat id =>
      refine holds_gate hid (fun allowed hadmit => ?_) herror
      refine holds_plain_bind plain_openStore (fun _ => ?_) herror
      exact holds_inl_bind (R := fun _ _ => True)
        (holds_heartbeatTask (admitted_of_admission hadmit) (fun _ _ => trivial) fun _ _ => trivial)
        (fun hand _ _ => hother _ _ (by simp)) namesOwn_error
  | complete id req =>
      refine holds_gate hid (fun allowed hadmit => ?_) herror
      refine holds_plain_bind plain_openStore (fun _ => ?_) herror
      exact holds_inl_bind (R := fun _ _ => True)
        (holds_complete (admitted_of_admission hadmit) (fun _ _ => trivial) fun _ _ => trivial)
        (fun hand _ _ => hother _ _ (by simp)) namesOwn_error

end Serve

end Endpoints

/-! ## What its calls do -/

section Calls

variable {t : Token} {hand : Hand} {s s' : Store}

/-- The token allows the workstream. -/
abbrev Token.Covers (t : Token) (workstream : Workstream) : Prop :=
  t.allowsWorkstream (some workstream.name) = true

/-- What a request has in hand lies in the workstreams of its token. -/
structure Hand.Sound (t : Token) (s : Store) (hand : Hand) : Prop where
  own : ∀ id, hand.own = some id → ∃ row, s.tasks.find? id = some row ∧ t.Covers row.workstream
  seen : ∀ workstream ∈ hand.seen, t.Covers workstream

theorem Hand.Sound.empty (t : Token) (s : Store) : Hand.Sound t s {} :=
  ⟨fun _ h => (nomatch h), fun _ h => (nomatch h)⟩

/-- Whatever keeps the origins of tasks keeps a hand sound. -/
theorem Hand.Sound.mono (h : hand.Sound t s)
    (hkeep : ∀ id row, s.tasks.find? id = some row →
      ∃ row', s'.tasks.find? id = some row' ∧ row'.workstream = row.workstream) :
    hand.Sound t s' := by
  refine ⟨fun id hown => ?_, h.seen⟩
  obtain ⟨row, hrow, hcovers⟩ := h.own id hown
  obtain ⟨row', hrow', hsame⟩ := hkeep id row hrow
  exact ⟨row', hrow', by rw [Token.Covers, hsame]; exact hcovers⟩

/-- A committed call keeps the rows and their workstreams. -/
theorem workstream_kept {o : StoreOp} {r : o.Res} (h : o.exec s = .ok (r, s')) (id : Uuid)
    (row : Task) (hrow : s.tasks.find? id = some row) :
    ∃ row', s'.tasks.find? id = some row' ∧ row'.workstream = row.workstream := by
  cases exec_rowEffect h id with
  | same hsame => exact ⟨row, hsame ▸ hrow, rfl⟩
  | created a ws op fresh hnew =>
      rw [fresh] at hrow
      cases hrow
  | wrote old row' found rewrites hnew =>
      obtain rfl := Option.some.inj (found.symm.trans hrow)
      exact ⟨row', hnew, rewrites.workstream⟩

/-- The row is free for a remote of the token to take. -/
def Takes (t : Token) (old row : Task) : Prop :=
  old.status = .upForGrabs ∧ old.assignee ≠ some .host ∧ row.claimedBy = some t.identity

/-- What a call of the token's changes: rows of its workstreams, which are new, its own, or taken
by it; events of its workstreams or of the gateway itself; and nothing else. -/
structure Confined (t : Token) (owns : Uuid → Prop) (s s' : Store) : Prop where
  tasks : ∀ id, s'.tasks.find? id ≠ s.tasks.find? id →
    ∃ row, s'.tasks.find? id = some row ∧ t.Covers row.workstream ∧
      ∀ old, s.tasks.find? id = some old → owns id ∨ Takes t old row
  events : ∃ added, s'.events = s.events ++ added ∧ ∀ e ∈ added, Logs t e.workstream
  rest : s'.approvals = s.approvals ∧ s'.decisions = s.decisions ∧
    s'.identityTrust = s.identityTrust ∧ s'.commsClaims = s.commsClaims ∧ s'.toolRuns = s.toolRuns

variable {owns owns' : Uuid → Prop}

theorem Confined.refl (t : Token) (owns : Uuid → Prop) (s : Store) : Confined t owns s s :=
  ⟨fun _ h => absurd rfl h, ⟨[], by simp, by simp⟩, rfl, rfl, rfl, rfl, rfl⟩

theorem Confined.mono (howns : ∀ id, owns id → owns' id) (h : Confined t owns s s') :
    Confined t owns' s s' := by
  refine ⟨fun id hne => ?_, h.events, h.rest⟩
  obtain ⟨row, hrow, hcovers, hold⟩ := h.tasks id hne
  exact ⟨row, hrow, hcovers, fun old hfound => (hold old hfound).imp_left (howns id)⟩

/-- A frame that leaves all but the queue and the log. -/
theorem rest_of_frame {w : List Region} (h : Frame w s s')
    (hw : w = [.tasks] ∨ w = [.log]) : s'.approvals = s.approvals ∧ s'.decisions = s.decisions ∧
      s'.identityTrust = s.identityTrust ∧ s'.commsClaims = s.commsClaims ∧
      s'.toolRuns = s.toolRuns := by
  rcases hw with rfl | rfl <;>
    exact ⟨h.approvals rfl, (h.decisions rfl).1, h.trust rfl, (h.claims rfl).1, h.tools rfl⟩

/-- A row in hand that is rewritten. -/
theorem Confined.of_rewrite {o : StoreOp} {id : Uuid} {old row : Task}
    (hold : s.tasks.find? id = some old) (hcovers : t.Covers old.workstream)
    (horigin : row.workstream = old.workstream) (hnew : s'.tasks.find? id = some row)
    (hothers : s.SameTasksBut s' id) (hheld : owns id ∨ Takes t old row)
    (hframe : Frame o.footprint s s') (hfoot : o.footprint = [.tasks])
    (hevents : ∃ added, s'.events = s.events ++ added ∧
      ∀ e ∈ added, e.workstream = old.workstream) : Confined t owns s s' := by
  refine ⟨fun id' hne => ?_, ?_, rest_of_frame hframe (.inl hfoot)⟩
  · by_cases hid : id' = id
    · subst hid
      refine ⟨row, hnew, by rw [Token.Covers, horigin]; exact hcovers, fun old' hold' => ?_⟩
      obtain rfl := Option.some.inj (hold.symm.trans hold')
      exact hheld
    · exact absurd (hothers id' hid) hne
  · obtain ⟨added, hadded, hall⟩ := hevents
    exact ⟨added, hadded, fun e he => .inr (by rw [hall e he]; exact hcovers)⟩

/-- The events of a move are of the workstream of its task. -/
theorem workstream_of_transitionEvents {id : Uuid} {row : Task} {target : TaskStatus}
    {a : TransitionArgs} {e : Event} (h : e ∈ s.transitionEvents id row target a) :
    e.workstream = row.workstream := by
  unfold Store.transitionEvents at h
  cases hterminal : target.isTerminal with
  | false =>
      simp only [hterminal, Bool.false_eq_true, if_false, List.mem_singleton] at h
      rw [h]
  | true =>
      simp only [hterminal, if_true, List.mem_cons, List.not_mem_nil, or_false] at h
      rcases h with rfl | rfl <;> rfl

/-- A row that is moved. -/
theorem Confined.of_moves {o : StoreOp} {id : Uuid} {old : Task} {target : TaskStatus}
    {a : TransitionArgs} (hm : Moves s id target a old) (hcovers : t.Covers old.workstream)
    (hheld : owns id ∨ Takes t old (a.update s.now target old))
    (hframe : Frame o.footprint s (s.recordTransition id old target a))
    (hfoot : o.footprint = [.tasks]) : Confined t owns s (s.recordTransition id old target a) :=
  .of_rewrite hm.found hcovers (a.update_workstream s.now target old)
    (s.find?_recordTransition_self _ _ _ _ hm.found) (fun _ hne => s.find?_recordTransition_ne _ _ _ _ hne) hheld hframe hfoot
    ⟨_, rfl, fun _ he => workstream_of_transitionEvents he⟩

/-- **One call of a request** is confined, and leaves a sound hand. -/
theorem confined_of_call {o : StoreOp} {v : o.Res} (hand_sound : hand.Sound t s)
    (ho : mayWrite t hand o) (h : o.exec s = .ok (v, s')) :
    Confined t (hand.own = some ·) s s' ∧ (nextHand t hand o (.ok v)).Sound t s' := by
  have hkept := hand_sound.mono (workstream_kept h)
  have hframe := exec_frame h
  cases o with
  | getTask id =>
      obtain ⟨rfl, rfl⟩ := Prod.mk.inj (Except.ok.inj h)
      refine ⟨.refl t _ s, ?_⟩
      cases hrow : s.tasks.find? id with
      | none => exact hand_sound
      | some row =>
          change Hand.Sound t s (if Holds t row then { hand with own := some id } else hand)
          split_ifs with hholds
          · refine ⟨?_, hand_sound.seen⟩
            rintro _ ⟨⟩
            exact ⟨row, hrow, hholds.2⟩
          · exact hand_sound
  | emit taskId workstream payload =>
      obtain ⟨-, rfl⟩ := Prod.mk.inj (Except.ok.inj h)
      refine ⟨⟨fun _ hne => absurd rfl hne, ⟨_, rfl, fun e he => ?_⟩,
        rest_of_frame hframe (.inr rfl)⟩, hkept⟩
      rw [List.mem_singleton.1 he]
      exact ho.2.elim id fun hseen => .inr (hand_sound.seen _ hseen)
  | enqueueTask id a =>
      have hname := enqueueTask_workstream h
      obtain ⟨ws, tasks, rfl, -, hinsert, rfl⟩ := enqueueTask_cases h
      have hcovers : t.Covers ws := by rw [Token.Covers, show ws.name = a.workstream from hname]; exact ho
      refine ⟨⟨fun id' hne => ?_, ⟨_, rfl, fun e he => ?_⟩, rest_of_frame hframe (.inl rfl)⟩,
        hkept.own, fun workstream hmem => ?_⟩
      · rw [Store.appendEvent_tasks, Table.find?_insert hinsert id'] at hne ⊢
        by_cases hid : id' = id
        · subst hid
          refine ⟨_, if_pos rfl, hcovers, fun old hold => ?_⟩
          rw [(Table.insert?_eq_some hinsert).1] at hold
          cases hold
        · exact absurd (if_neg hid) hne
      · rw [List.mem_singleton.1 he]
        exact .inr hcovers
      · rcases List.mem_cons.1 hmem with rfl | hmem
        · exact hcovers
        · exact hand_sound.seen _ hmem
  | grabTask a locked =>
      rcases grabTask_cases h with ⟨rfl, rfl⟩ | ⟨id, row, -, hpick, hm, rfl, rfl⟩
      · exact ⟨.refl t _ _, hand_sound⟩
      · obtain ⟨hworker, hassignee, hallows⟩ := ho
        obtain ⟨hrow, hgrab, -⟩ := GrabArgs.pick_eq_some hpick
        simp only [GrabArgs.grabbable, hassignee, Option.all_some, Bool.and_eq_true,
          decide_eq_true_eq] at hgrab
        have hcovers : t.Covers row.workstream := by
          cases hws : a.workstream with
          | none =>
              rw [hws] at hallows
              rw [Token.Covers, Token.allowsWorkstream]
              simpa [Token.allowsWorkstream] using Or.inl hallows
          | some name =>
              have hsame : row.workstream.name = name := by simpa [hws] using hgrab.1.1.2
              rw [Token.Covers, hsame, ← hws]
              exact hallows
        refine ⟨.of_moves hm hcovers (.inr ⟨hgrab.1.1.1.1, fun hhost => ?_, ?_⟩) hframe rfl,
          ?_, fun workstream hmem => ?_⟩
        · simpa [hhost] using hgrab.1.1.1.2
        · simp [GrabArgs.claim, hworker]
        · rintro _ ⟨⟩
          exact ⟨_, s.find?_recordTransition_self _ _ _ _ hm.found, hcovers⟩
        · rcases List.mem_cons.1 hmem with rfl | hmem
          · exact hcovers
          · exact hand_sound.seen _ hmem
  | heartbeat id workerId =>
      obtain ⟨hown, -⟩ := ho
      refine ⟨?_, hkept⟩
      change heartbeat id workerId s = _ at h
      unfold heartbeat at h
      split at h
      · obtain ⟨-, rfl⟩ := Prod.mk.inj (Except.ok.inj h)
        exact .refl t _ s
      · rename_i row s₁ hu
        obtain ⟨-, rfl⟩ := Prod.mk.inj (Except.ok.inj h)
        obtain ⟨old, hold, -, rfl, rfl⟩ := Store.updateTask_eq_some hu
        obtain ⟨old', hold', hcovers⟩ := hand_sound.own id hown
        obtain rfl := Option.some.inj (hold.symm.trans hold')
        exact .of_rewrite hold hcovers
          (show (old.beat s.now).workstream = old.workstream from rfl)
          (s.find?_setTask_self _ _ _ hold) (fun _ hne => s.find?_setTask_ne _ _ hne) (.inl hown) hframe rfl ⟨[], by simp, by simp⟩
  | transition id target a =>
      rcases transition_cases h with ⟨rfl, rfl, -⟩ | ⟨row, hm, rfl, rfl⟩
      · exact ⟨.refl t _ _, hand_sound⟩
      · obtain ⟨row', hrow', hcovers⟩ := hand_sound.own id ho
        obtain rfl := Option.some.inj (hm.found.symm.trans hrow')
        refine ⟨.of_moves hm hcovers (.inl ho) hframe rfl, hkept.own, fun workstream hmem => ?_⟩
        rcases List.mem_cons.1 hmem with rfl | hmem
        · exact hcovers
        · exact hand_sound.seen _ hmem
  | _ => exact ho.elim

end Calls

/-! ## Runs -/

section Runs

variable {t : Token} {server : Server} {P α : Type} {p : P} {hand : Hand}

/-- The call gave the token the task: a claim returned it, or a read found it to be the token's. -/
def gives (t : Token) (id : Uuid) : (o : StoreOp) → Except Exn o.Res → Prop
  | .getTask id', .ok (some row) => id' = id ∧ Holds t row
  | .grabTask .., .ok (some (id', _)) => id' = id
  | _, _ => False

/-- The step gave the token the task. -/
def Gives (t : Token) (id : Uuid) : Step (service server) P α → Prop
  | ⟨_, .inl o, r, _, _⟩ => gives t id o r
  | ⟨_, .inr _, _, _, _⟩ => False

/-- A task in hand was given. -/
theorem gives_of_own {o : StoreOp} {r : Except Exn o.Res} {id : Uuid}
    (h : (nextHand t hand o r).own = some id) : hand.own = some id ∨ gives t id o r := by
  cases o with
  | getTask id' =>
      rcases r with e | (_ | row)
      · exact .inl h
      · exact .inl h
      · change (if Holds t row then { hand with own := some id' } else hand : Hand).own = some id
          at h
        split_ifs at h with hholds
        · exact .inr ⟨Option.some.inj h, hholds⟩
        · exact .inl h
  | grabTask a locked =>
      rcases r with e | (_ | ⟨id', row⟩)
      · exact .inl h
      · exact .inl h
      · exact .inr (Option.some.inj h)
  | transition id' target a =>
      rcases r with e | (_ | row) <;> exact .inl h
  | _ => cases r <;> exact .inl h

theorem exec_gatewayOp {o : GatewayOp} {s s' : Store × RateLimiter} {v : o.Res server}
    (h : o.exec server s = .ok (v, s')) : s'.1 = s.1 := by
  cases o <;> cases h <;> rfl

variable [DecidableEq P] {c c' : Config (service server) P α} {τ : List (Step (service server) P α)}
  {st : Step (service server) P α}

/-- What a step of anyone does to the database. -/
theorem database_of_step (hf : Fires st) :
    (∃ o v, st.op = .inl o ∧ o.exec st.before.state.1 = .ok (v, st.after.state.1)) ∨
      st.after.state.1 = st.before.state.1 := by
  obtain ⟨pid, op, out, before, after⟩ := st
  rcases hf.outcome with ⟨v, hv, hexec⟩ | ⟨e, -, habort⟩
  · cases op with
    | inl o => exact .inl ⟨o, v, rfl, (Interface.exec_inl_eq_ok hexec).1⟩
    | inr o => exact .inr (exec_gatewayOp hexec)
  · refine .inr ?_
    rw [habort]
    cases op <;> rfl

/-- No step of anyone moves a task to another workstream. -/
theorem sound_step_other (hf : Fires st) (h : hand.Sound t st.before.state.1) :
    hand.Sound t st.after.state.1 := by
  refine h.mono fun id row hrow => ?_
  rcases database_of_step hf with ⟨o, v, -, hexec⟩ | hsame
  · exact workstream_kept hexec id row hrow
  · exact ⟨row, hsame ▸ hrow, rfl⟩

/-- One step of a request. -/
theorem confined_step {Q : Hand → Except Exn α → Prop} (hf : Fires st)
    (hallows : (requestOutline t server Q).allows hand st.op)
    (h : hand.Sound t st.before.state.1) :
    Confined t (hand.own = some ·) st.before.state.1 st.after.state.1 ∧
      ((requestOutline t server Q).next hand st.op st.out).Sound t st.after.state.1 ∧
      ∀ id, ((requestOutline t server Q).next hand st.op st.out).own = some id →
        hand.own = some id ∨ Gives t id st := by
  obtain ⟨pid, op, out, before, after⟩ := st
  cases op with
  | inr o =>
      have hsame : after.state.1 = before.state.1 := by
        rcases database_of_step hf with ⟨o', v, ho, -⟩ | hsame
        · cases ho
        · exact hsame
      refine ⟨?_, ?_, fun id hown => .inl hown⟩
      · change Confined t _ before.state.1 after.state.1
        rw [hsame]
        exact .refl t _ _
      · exact sound_step_other hf h
  | inl o =>
      cases out with
      | ok v =>
          obtain ⟨hconfined, hnext⟩ := confined_of_call h hallows (exec_of_inl (I := database) hf).1
          exact ⟨hconfined, hnext, fun id hown => gives_of_own hown⟩
      | error e =>
          have hsame : after.state.1 = before.state.1 := by
            rcases hf.outcome with ⟨v, hv, -⟩ | ⟨e', -, habort⟩
            · cases hv
            · exact congrArg Prod.fst habort
          have hkept : nextHand t hand o (.error e) = hand := by cases o <;> rfl
          refine ⟨?_, ?_, fun id hown => gives_of_own hown⟩
          · change Confined t _ before.state.1 after.state.1
            rw [hsame]
            exact .refl t _ _
          · change (nextHand t hand o (.error e)).Sound t after.state.1
            rw [hkept]
            exact sound_step_other hf h

/-- What the trace shows of a request's hand. -/
def Traced (t : Token) (p : P) (τ : List (Step (service server) P α)) (s : Store × RateLimiter)
    (hand : Hand) : Prop :=
  hand.Sound t s.1 ∧ ∀ id, hand.own = some id → ∃ st ∈ τ, st.pid = p ∧ Gives t id st

end Runs

section Requests

variable {t : Token} {server : Server} {P : Type} [DecidableEq P] {p : P}
  {c c' : Config (service server) P Response} {τ : List (Step (service server) P Response)}

/-- **The hand of a request after any run** of it beside other processes. -/
theorem traced_of_reach {request : Request} {authorization : Option String} {now : ℚ}
    (hid : server.tokens.identify server.digest authorization = .ok t)
    (hp : c.pool p = serve request authorization now) (h : Reach c τ c') :
    ∃ hand, (requestOutline t server NamesOwn).Holds hand (c'.pool p) ∧
      Traced t p τ c'.state hand := by
  refine h.induct (motive := fun τ c' => ∃ hand,
    (requestOutline t server NamesOwn).Holds hand (c'.pool p) ∧ Traced t p τ c'.state hand) ?_ ?_
  · exact ⟨{}, hp ▸ holds_serve hid, .empty t _, fun id h => nomatch h⟩
  · rintro τ₁ st - hf ⟨hand, hholds, hsound, hgiven⟩
    have hgiven' : ∀ id, hand.own = some id → ∃ st' ∈ τ₁ ++ [st], st'.pid = p ∧ Gives t id st' := by
      intro id hown
      obtain ⟨st', hst', hpid, hgives⟩ := hgiven id hown
      exact ⟨st', List.mem_append_left _ hst', hpid, hgives⟩
    obtain ⟨k, hcall, hpool⟩ := hf.called
    by_cases hpid : p = st.pid
    · subst hpid
      rw [hcall] at hholds
      obtain ⟨hallows, hnext⟩ := hholds
      obtain ⟨-, hsound', hown'⟩ := confined_step hf hallows hsound
      refine ⟨_, by rw [hpool, Function.update_self]; exact hnext st.out, hsound', fun id hown => ?_⟩
      rcases hown' id hown with hown | hgives
      · exact hgiven' id hown
      · exact ⟨st, List.mem_append_right _ (List.mem_singleton_self st), rfl, hgives⟩
    · exact ⟨hand, by rw [hf.pool_ne hpid]; exact hholds, sound_step_other hf hsound, hgiven'⟩

end Requests

/-! ### A claim -/

/-- A remote agent that may claim in one workstream. -/
def drafter : Token where
  identity := "drafter"
  scopes := [.read, .claim, .complete]
  digest := "d-drafter"
  workstreams := ["productivity"]
  identified := by decide
  named := by decide
  distinct := by decide

/-- A gateway that knows the agent. -/
def onePin : Server where
  tokens := ⟨[drafter], by decide⟩
  digest secret := "d-" ++ secret
  traffic := "gateway"

/-- The agent claims while the host enqueues. -/
def remoteClaim : Config (service onePin) Bool Response :=
  ⟨(Store.initial 0, .new 60 5), fun
    | true => serve (.claim none none []) (some "Bearer drafter") 0
    | false => ((call (.enqueueTask taskT
        { workstream := "productivity", type := "work.doc", priority := 3 })).bind fun _ =>
          .ret (.health 1)).inl⟩

/-- The host enqueues, then the claim goes through. -/
def hostFirst : List (Choice Bool Exn) := (false, none) :: List.replicate 5 (true, none)

end AiStudio.Gateway
