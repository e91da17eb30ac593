import PulSeed.Approval.Broker
import PulSeed.Permission.Resume

/-!
# Agreement on an approval

A finalization answers with its own resolution, whatever row the store hands back. While
every finalization that finds its row resolved already finds its own decision there,
everything that can be seen of an approval agrees with its row, which is resolved at most
once and then stays (`agreement`). The invariant carries this to the finalizations that
have their row and have not answered yet (`Inv`). An approve and a deny call that both
wait for the same save both return `true` (`approved_and_denied`).
-/

namespace PulSeed.Approval

open WaitPlan (PlanStore planStep)

/-! ## Statement -/

/-- The observation is what a row in this state should show. -/
def Observation.AgreesWith (state : ApprovalState) : Observation → Prop
  | .resolvedRow resolved => resolved = state
  | .promise _ approved => approved = true ↔ state = .approved
  | .approvalResolved _ approved _ _ => approved = true ↔ state = .approved
  | .transition _ moved => moved = state
  | .returnedTrue approved => state = if approved then .approved else .denied

def Observation.isResolvedRow : Observation → Bool
  | .resolvedRow _ => true
  | _ => false

/-- How often a row was resolved. -/
def State.resolutions (s : State) (approvalId : String) : Nat :=
  s.observed.countP fun o => decide (o.1 = approvalId) && o.2.isResolvedRow

/-- Everything seen of an approval agrees with its resolved row, and the row was resolved
at most once. -/
structure Agreed (s : State) : Prop where
  agrees : ∀ approvalId o, (approvalId, o) ∈ s.observed →
    ∃ record, s.rows.Settled approvalId record ∧ o.AgreesWith record.state
  once : ∀ approvalId, s.resolutions approvalId ≤ 1

/-- A resolve call waits for the finalization. -/
def Caller.isCall : Caller → Bool
  | .call _ => true
  | _ => false

/-- The finalization may answer for this resolved row: it is of its own decision, or both
refuse, there is no wait plan to move and no call to return to. -/
def Finalization.AccordsWith (options : ApprovalBrokerOptions) (f : Finalization)
    (record : ApprovalRecord) : Prop :=
  record.state = f.resolution.state ∨
    (record.state ≠ .approved ∧ f.resolution.approved = false ∧
      State.planOf options record = none ∧ f.caller.isCall = false)

instance (options : ApprovalBrokerOptions) (f : Finalization) (record : ApprovalRecord) :
    Decidable (f.AccordsWith options record) :=
  inferInstanceAs (Decidable (_ ∨ (_ ∧ _ ∧ _ ∧ _)))

/-- The transaction of a resolution, when it comes, finds its row pending, or resolved as
it accords with. -/
def Task.FindsItsOwn (options : ApprovalBrokerOptions) (rows : Rows) : Task → Prop
  | .resolving f _ _ => ∀ record ∈ rows.get? f.approvalId,
      record.state = .pending ∨ f.AccordsWith options record
  | _ => True

instance (options : ApprovalBrokerOptions) (rows : Rows) : (task : Task) →
    Decidable (task.FindsItsOwn options rows)
  | .resolving f _ _ => inferInstanceAs (Decidable (∀ record ∈ rows.get? f.approvalId, _ ∨ _))
  | .started _ | .listing _ | .restoring _ _ | .saving _ _ | .saved _ _ | .saveFailed _
  | .ready | .readyRejected | .delivering _ _ | .loading _ _ | .loaded _ _ _
  | .awaitingReady _ _ | .resolved _ _ _ | .transitioning _ _ _ _ | .finished =>
    instDecidableTrue

/-- The condition: every resolution finds its own decision, if any. -/
def FindsItsOwn (options : ApprovalBrokerOptions) (s : State) : Step → Prop
  | .resume k _ _ _ => ∀ task ∈ s.tasks[k]?, task.FindsItsOwn options s.rows
  | _ => True

instance (options : ApprovalBrokerOptions) (s : State) : (l : Step) →
    Decidable (FindsItsOwn options s l)
  | .resume k _ _ _ =>
    inferInstanceAs (Decidable (∀ task ∈ s.tasks[k]?, task.FindsItsOwn options s.rows))
  | .setBroadcast | .stop | .start | .request _ | .resolve _ _ _ | .timeout _ _ | .plan _ _ =>
    instDecidableTrue

/-! ## The invariant -/

section

variable {options : ApprovalBrokerOptions}

/-- The decision of a resolve call is that of its finalization. -/
def Finalization.Ok (f : Finalization) : Prop :=
  ∀ approved, f.caller = .call approved →
    f.resolution.state = if approved then .approved else .denied

/-- A finalization that has its row holds the resolved row and accords with it. -/
def TaskOk (options : ApprovalBrokerOptions) (rows : Rows) : Task → Prop
  | .awaitingReady f _ | .resolving f _ _ => f.Ok
  | .resolved f _ record | .transitioning f _ record _ =>
    f.Ok ∧ rows.Settled f.approvalId record ∧ f.AccordsWith options record
  | _ => True

structure Inv (options : ApprovalBrokerOptions) (s : State) : Prop where
  agreed : Agreed s
  tasks : ∀ task ∈ s.tasks, TaskOk options s.rows task

theorem TaskOk.mono {rows rows' : Rows} {task : Task}
    (hrows : ∀ id record, rows.Settled id record → rows'.Settled id record)
    (h : TaskOk options rows task) : TaskOk options rows' task := by
  cases task with
  | resolved f session record => exact ⟨h.1, hrows _ _ h.2.1, h.2.2⟩
  | transitioning f session record mark => exact ⟨h.1, hrows _ _ h.2.1, h.2.2⟩
  | awaitingReady f ready => exact h
  | resolving f session resolvedAt => exact h
  | started _ | listing _ | restoring _ _ | saving _ _ | saved _ _ | saveFailed _ | ready
  | readyRejected | delivering _ _ | loading _ _ | loaded _ _ _ | finished => trivial

namespace Inv

/-- The invariant reads the rows, the tasks and what was observed. -/
theorem congr {s s' : State} (h : Inv options s) (hrows : s'.rows = s.rows)
    (htasks : s'.tasks = s.tasks) (hobserved : s'.observed = s.observed) : Inv options s' where
  agreed := by
    refine ⟨fun id o ho => ?_, fun id => ?_⟩
    · rw [hobserved] at ho
      rw [hrows]
      exact h.agreed.agrees id o ho
    · unfold State.resolutions
      rw [hobserved]
      exact h.agreed.once id
  tasks := by
    rw [hrows, htasks]
    exact h.tasks

theorem put {s : State} (h : Inv options s) (k : Nat) {task : Task}
    (htask : TaskOk options s.rows task) : Inv options (s.put k task) where
  agreed := ⟨h.agreed.agrees, h.agreed.once⟩
  tasks := by
    intro t ht
    rcases List.mem_or_eq_of_mem_set ht with ht | rfl
    · exact h.tasks t ht
    · exact htask

theorem spawn {s : State} (h : Inv options s) {task : Task}
    (htask : TaskOk options s.rows task) : Inv options (s.spawn task) where
  agreed := ⟨h.agreed.agrees, h.agreed.once⟩
  tasks := by
    intro t ht
    rcases List.mem_append.mp ht with ht | ht
    · exact h.tasks t ht
    · rw [List.mem_singleton.mp ht]
      exact htask

/-- An observation other than a resolution of the row, of a resolved row. -/
theorem observe {s : State} (h : Inv options s) {id : String} {o : Observation}
    {record : ApprovalRecord} (hsettled : s.rows.Settled id record)
    (hagrees : o.AgreesWith record.state) (hother : o.isResolvedRow = false) :
    Inv options (s.observe id o) where
  agreed := by
    refine ⟨fun id' o' ho => ?_, fun id' => ?_⟩
    · rcases List.mem_append.mp ho with ho | ho
      · exact h.agreed.agrees id' o' ho
      · obtain ⟨rfl, rfl⟩ := Prod.mk.inj (List.mem_singleton.mp ho)
        exact ⟨record, hsettled, hagrees⟩
    · have hcount : (s.observe id o).resolutions id' = s.resolutions id' := by
        simp [State.resolutions, State.observe, List.countP_append, hother]
      rw [hcount]
      exact h.agreed.once id'
  tasks := h.tasks

/-- New rows that keep the resolved ones. -/
theorem withRows {s : State} (h : Inv options s) {rows : Rows}
    (hrows : ∀ id record, s.rows.Settled id record → rows.Settled id record) :
    Inv options { s with rows := rows } where
  agreed := by
    refine ⟨fun id o ho => ?_, h.agreed.once⟩
    obtain ⟨record, hsettled, hagrees⟩ := h.agreed.agrees id o ho
    exact ⟨record, hrows _ _ hsettled, hagrees⟩
  tasks := fun task htask => (h.tasks task htask).mono hrows

/-- A pending row has not been resolved, and nothing was seen of it. -/
theorem unseen {s : State} (h : Inv options s) {id : String} {current : ApprovalRecord}
    (hcurrent : s.rows.get? id = some current) (hpending : current.state = .pending) :
    s.resolutions id = 0 := by
  refine List.countP_eq_zero.mpr fun o ho hcounted => ?_
  obtain ⟨id', o⟩ := o
  simp only [Bool.and_eq_true, decide_eq_true_eq] at hcounted
  obtain ⟨rfl, -⟩ := hcounted
  obtain ⟨record, hsettled, -⟩ := h.agreed.agrees id' o ho
  rw [hsettled.1] at hcurrent
  exact hsettled.2 (Option.some.inj hcurrent ▸ hpending)

/-- The resolution of a pending row. -/
theorem resolveRow {s : State} (h : Inv options s) {id : String}
    {current record : ApprovalRecord} (hcurrent : s.rows.get? id = some current)
    (hpending : current.state = .pending) (hdecided : record.state ≠ .pending) :
    Inv options { s.observe id (.resolvedRow record.state) with
      rows := s.rows.set id record } := by
  have hkept : ∀ id' r, s.rows.Settled id' r →
      Rows.Settled (ObjectMap.set s.rows id record) id' r := by
    intro id' r hsettled
    refine ⟨?_, hsettled.2⟩
    have hne : id' ≠ id := by
      rintro rfl
      rw [hsettled.1] at hcurrent
      exact hsettled.2 (Option.some.inj hcurrent ▸ hpending)
    rw [ObjectMap.get?_set, if_neg hne, hsettled.1]
  have hnew : Rows.Settled (ObjectMap.set s.rows id record) id record :=
    ⟨ObjectMap.get?_set_self _ _ _, hdecided⟩
  refine ⟨⟨fun id' o ho => ?_, fun id' => ?_⟩, fun task htask => (h.tasks task htask).mono hkept⟩
  · rcases List.mem_append.mp ho with ho | ho
    · obtain ⟨r, hsettled, hagrees⟩ := h.agreed.agrees id' o ho
      exact ⟨r, hkept _ _ hsettled, hagrees⟩
    · obtain ⟨rfl, rfl⟩ := Prod.mk.inj (List.mem_singleton.mp ho)
      exact ⟨record, hnew, rfl⟩
  · show (s.observed ++ [(id, Observation.resolvedRow record.state)]).countP _ ≤ 1
    rw [List.countP_append]
    by_cases hid : id = id'
    · subst hid
      have hzero := h.unseen hcurrent hpending
      unfold State.resolutions at hzero
      rw [hzero]
      simp [Observation.isResolvedRow]
    · have hold := h.agreed.once id'
      unfold State.resolutions at hold
      simpa [hid] using hold

end Inv

/-! ## The pieces of a finalization -/

open State in
/-- A piece of a task keeps the invariant, and so does the task it leaves. -/
def PieceOk (options : ApprovalBrokerOptions) (result : State × Task) : Prop :=
  Inv options result.1 ∧ TaskOk options result.1.rows result.2

theorem PieceOk.continued {result : State × Task} (h : PieceOk options result) (k : Nat) :
    Inv options (State.continued k result) := h.1.put k h.2

theorem PieceOk.launched {result : State × Task} (h : PieceOk options result) :
    Inv options (State.launched result) := h.1.spawn h.2

theorem takeSession_ok {s : State} (h : Inv options s) {f : Finalization} (hf : f.Ok)
    (now : Millis) : PieceOk options (s.takeSession f now) :=
  ⟨h.congr rfl rfl rfl, hf⟩

theorem finalizeApproval_ok {s : State} (h : Inv options s) {f : Finalization} (hf : f.Ok)
    (now : Millis) : PieceOk options (s.finalizeApproval f now) := by
  unfold State.finalizeApproval
  split
  · split
    · exact ⟨h.congr rfl rfl rfl, hf⟩
    · exact takeSession_ok h hf now
  · exact takeSession_ok h hf now

/-- A finalization of anything but a call. -/
theorem ok_of_not_call {f : Finalization} (h : f.caller.isCall = false) : f.Ok := by
  intro approved hcaller
  rw [hcaller] at h
  cases h

theorem resolveWith_ok {s : State} (h : Inv options s) (approvalId : String)
    (call : ResolveCall) (record : Option ApprovalRecord) (reading : Reading) :
    PieceOk options (s.resolveWith options approvalId call record reading) := by
  unfold State.resolveWith
  split
  · refine finalizeApproval_ok h (fun approved hcaller => ?_) reading.now
    obtain rfl := Caller.call.inj hcaller
    rfl
  · exact ⟨h, trivial⟩

theorem trackPending_ok {s : State} (h : Inv options s) (record : ApprovalRecord)
    (request : Option Nat) : Inv options (s.trackPending record request) := h.congr rfl rfl rfl

/-- A call returns `true` only for the row it accords with. -/
theorem returned_ok {s : State} (h : Inv options s) (k : Nat) {f : Finalization} (hf : f.Ok)
    {record : Option ApprovalRecord} (hrecord : ∀ r ∈ record,
      s.rows.Settled f.approvalId r ∧ f.AccordsWith options r) :
    Inv options (s.returned k f record) := by
  unfold State.returned
  split
  · next approved hcaller =>
    split
    · next r =>
      obtain ⟨hsettled, haccords⟩ := hrecord r rfl
      refine (h.observe hsettled ?_ rfl).put k trivial
      rcases haccords with hstate | ⟨-, -, -, hcall⟩
      · exact hstate.trans (hf approved hcaller)
      · rw [hcaller] at hcall
        cases hcall
    · exact h.put k trivial
  · exact h.put k trivial
  · exact h.put k trivial
  · exact h.put k trivial

theorem threw_ok {s : State} (h : Inv options s) (k : Nat) (f : Finalization) (now : Millis) :
    Inv options (s.threw k f now) := by
  unfold State.threw
  split
  · exact (finalizeApproval_ok h (ok_of_not_call rfl) now).continued k
  · exact h.put k trivial

/-- The flag of a finalization that accords with a row is the decision of the row. -/
theorem Finalization.AccordsWith.approved {f : Finalization} {record : ApprovalRecord}
    (h : f.AccordsWith options record) :
    f.resolution.approved = true ↔ record.state = .approved := by
  rcases h with hstate | ⟨hrefused, hflag, -, -⟩
  · rw [hstate]
    exact f.resolution.agrees
  · rw [hflag]
    exact ⟨fun hfalse => absurd hfalse (by decide), fun happroved => absurd happroved hrefused⟩

theorem transitionPermissionWaitPlan_ok {s : State} (h : Inv options s) (k : Nat)
    {f : Finalization} (hf : f.Ok) (session : Option PendingApprovalSession)
    {record : ApprovalRecord} (hsettled : s.rows.Settled f.approvalId record)
    (haccords : f.AccordsWith options record) (now : Millis) :
    Inv options (State.transitionPermissionWaitPlan options s k f session record now) := by
  unfold State.transitionPermissionWaitPlan
  split
  · next plan request hplan hrequest =>
    have hstate : f.resolution.state = record.state := by
      rcases haccords with hstate | ⟨-, -, hnone, -⟩
      · exact hstate.symm
      · rw [hnone] at hplan
        cases hplan
    have hobserved : Inv options
        (s.observe f.approvalId (.transition plan f.resolution.state)) :=
      h.observe hsettled hstate rfl
    have htask : TaskOk options s.rows (.transitioning f session record
        (some (plan, (s.plans plan).calls.length))) := ⟨hf, hsettled, haccords⟩
    exact (hobserved.put k htask).congr rfl rfl rfl
  · exact h.put k ⟨hf, hsettled, haccords⟩

theorem complete_ok {s : State} (h : Inv options s) (k : Nat) {f : Finalization} (hf : f.Ok)
    (session : Option PendingApprovalSession) {record : ApprovalRecord}
    (hsettled : s.rows.Settled f.approvalId record) (haccords : f.AccordsWith options record) :
    Inv options (s.complete k f session record) := by
  have hpromise : Inv options (s.resolvePromise f session) ∧
      (s.resolvePromise f session).rows = s.rows := by
    unfold State.resolvePromise
    split
    · split
      · exact ⟨h, rfl⟩
      · next request hrequest hnew =>
        have hobserved : Inv options
            (s.observe f.approvalId (.promise request f.resolution.approved)) :=
          h.observe hsettled haccords.approved rfl
        exact ⟨hobserved.congr rfl rfl rfl, rfl⟩
    · exact ⟨h, rfl⟩
  have hbroadcast : Inv options ((s.resolvePromise f session).broadcastResolved f record) ∧
      ((s.resolvePromise f session).broadcastResolved f record).rows = s.rows := by
    unfold State.broadcastResolved
    split
    · refine ⟨hpromise.1.observe ?_ haccords.approved rfl, hpromise.2⟩
      rw [hpromise.2]
      exact hsettled
    · exact hpromise
  refine returned_ok hbroadcast.1 k hf fun r hr => ?_
  obtain rfl := Option.mem_some.mp hr
  rw [hbroadcast.2]
  exact ⟨hsettled, haccords⟩

theorem deliverIfConversational_ok {s : State} (h : Inv options s) (record : ApprovalRecord)
    (deliverOverride : Bool) (now : Millis) :
    Inv options (State.deliverIfConversational options s record deliverOverride now) := by
  unfold State.deliverIfConversational
  split
  · exact h
  · have hfailed : ∀ f : Finalization, f.caller.isCall = false →
        Inv options (State.launched (s.finalizeApproval f now)) := fun f hf =>
      (finalizeApproval_ok h (ok_of_not_call hf) now).launched
    dsimp only
    split
    · exact hfailed _ rfl
    · split
      · exact hfailed _ rfl
      · exact h.spawn trivial

theorem saveCallback_ok {s : State} (h : Inv options s) (k : Nat) (record : ApprovalRecord)
    (deliverOverride : Bool) (now : Millis) :
    Inv options (State.saveCallback options s k record deliverOverride now) := by
  unfold State.saveCallback
  split
  · exact h.put k trivial
  · split
    · exact h.put k trivial
    · split
      · exact h.put k trivial
      · have hready : Inv options (s.put k .ready) := h.put k trivial
        exact deliverIfConversational_ok hready record deliverOverride now

/-! ## Steps -/

/-- **The transaction of a resolution**: it resolves a pending row, or finds its own
decision. -/
theorem resolving_ok {s s' : State} (h : Inv options s) {k : Nat} {f : Finalization}
    (hf : f.Ok) {session : Option PendingApprovalSession} {resolvedAt : Millis}
    {reading : Reading} {surfaceIssuanceId : String} {delivery : Delivery}
    (hfound : ∀ record ∈ s.rows.get? f.approvalId,
      record.state = .pending ∨ f.AccordsWith options record)
    (hstep : resumeTask options s k reading surfaceIssuanceId delivery
      (.resolving f session resolvedAt) = some s') : Inv options s' := by
  unfold resumeTask at hstep
  dsimp only at hstep
  split at hstep
  · cases hstep
    exact threw_ok h k f reading.now
  · cases hstep
    exact returned_ok h k hf fun r hr => absurd hr (by simp)
  · next rows record hres =>
    cases hstep
    rcases Rows.resolvePending_cases hres with
      ⟨rfl, hsettled⟩ | ⟨hstate, rfl, current, hcurrent, hpending⟩
    · have hnone : (s.rows.loadPending f.approvalId).isSome = false := by
        simp [Rows.loadPending, hsettled.1, hsettled.2]
      rw [hnone]
      have haccords : f.AccordsWith options record :=
        (hfound record hsettled.1).resolve_left hsettled.2
      exact Inv.put (h.congr rfl rfl rfl) k ⟨hf, hsettled, haccords⟩
    · have hsome : (s.rows.loadPending f.approvalId).isSome = true := by
        simp [Rows.loadPending, hcurrent, hpending]
      rw [hsome]
      have hdecided : record.state ≠ .pending := hstate ▸ f.resolution.isDecision
      have hrow := h.resolveRow hcurrent hpending hdecided
      rw [hstate] at hrow
      exact hrow.put k ⟨hf, ⟨ObjectMap.get?_set_self _ _ _, hdecided⟩, .inl hstate⟩

/-- **A piece of a task keeps the invariant.** -/
theorem resumeTask_ok {s s' : State} (h : Inv options s) {k : Nat} {reading : Reading}
    {surfaceIssuanceId : String} {delivery : Delivery} {task : Task}
    (htask : s.tasks[k]? = some task)
    (hfound : FindsItsOwn options s (.resume k reading surfaceIssuanceId delivery))
    (hstep : resumeTask options s k reading surfaceIssuanceId delivery task = some s') :
    Inv options s' := by
  have hok : TaskOk options s.rows task := h.tasks task (List.mem_of_getElem? htask)
  cases task with
  | started request =>
    unfold resumeTask at hstep
    dsimp only at hstep
    split at hstep
    · cases hstep
      exact h.put k trivial
    · split at hstep
      · cases hstep
        exact (trackPending_ok h _ _).put k trivial
      · cases hstep
        exact (trackPending_ok h _ _).put k trivial
  | listing request =>
    cases hstep
    exact h.put k trivial
  | restoring request records =>
    unfold resumeTask at hstep
    dsimp only at hstep
    split at hstep
    · split at hstep
      · cases hstep
        exact h.put k trivial
      · cases hstep
        exact h.put k trivial
    · split at hstep
      · cases hstep
        exact (finalizeApproval_ok h (ok_of_not_call rfl) reading.now).continued k
      · cases hstep
        exact (trackPending_ok h _ _).put k trivial
  | saving record deliverOverride =>
    cases hstep
    exact (h.withRows fun id r hsettled => hsettled.savePending record).put k trivial
  | saved record deliverOverride =>
    cases hstep
    exact saveCallback_ok h k record deliverOverride reading.now
  | saveFailed record =>
    cases hstep
    have hdeleted : Inv options { s with
        pending := s.pending.delete record.approvalId
        settled := s.settled ++ [k] } := h.congr rfl rfl rfl
    exact hdeleted.put k trivial
  | delivering record responseChannel =>
    unfold resumeTask at hstep
    dsimp only at hstep
    split at hstep
    · cases hstep
      exact h.put k trivial
    · cases hstep
      exact (finalizeApproval_ok h (ok_of_not_call rfl) reading.now).continued k
    · cases hstep
      exact (finalizeApproval_ok h (ok_of_not_call rfl) reading.now).continued k
  | loading approvalId call =>
    cases hstep
    exact h.put k trivial
  | loaded approvalId call record =>
    cases hstep
    exact (resolveWith_ok h approvalId call record reading).continued k
  | awaitingReady f ready =>
    unfold resumeTask at hstep
    dsimp only at hstep
    split at hstep
    · cases hstep
      exact (takeSession_ok h hok reading.now).continued k
    · cases hstep
      exact returned_ok h k hok fun r hr => absurd hr (by simp)
    · cases hstep
  | resolving f session resolvedAt =>
    exact resolving_ok h hok (hfound _ htask) hstep
  | resolved f session record =>
    cases hstep
    exact transitionPermissionWaitPlan_ok h k hok.1 session hok.2.1 hok.2.2 reading.now
  | transitioning f session record mark =>
    unfold resumeTask at hstep
    dsimp only at hstep
    split at hstep
    · cases hstep
      exact complete_ok h k hok.1 session hok.2.1 hok.2.2
    · cases hstep
  | ready => cases hstep
  | readyRejected => cases hstep
  | finished => cases hstep

/-- **Every step under the condition keeps the invariant.** -/
theorem inv_step {s s' : State} {l : Step} (hstep : brokerStep options s l = some s')
    (hfound : FindsItsOwn options s l) (h : Inv options s) : Inv options s' := by
  cases l with
  | setBroadcast =>
    cases hstep
    exact h.congr rfl rfl rfl
  | stop =>
    cases hstep
    exact h.congr rfl rfl rfl
  | start =>
    unfold brokerStep at hstep
    dsimp only at hstep
    split at hstep
    · cases hstep
      exact h
    · cases hstep
      have hstarted : Inv options { s with started := true } := h.congr rfl rfl rfl
      exact hstarted.spawn trivial
  | request request =>
    unfold brokerStep at hstep
    dsimp only at hstep
    split at hstep
    · cases hstep
      exact h.spawn trivial
    · cases hstep
      have hstarted : Inv options { s with started := true } := h.congr rfl rfl rfl
      exact hstarted.spawn trivial
  | resolve approvalId call reading =>
    unfold brokerStep at hstep
    dsimp only at hstep
    split at hstep
    · cases hstep
      exact (resolveWith_ok h _ _ _ reading).launched
    · cases hstep
      exact h.spawn trivial
  | timeout approvalId now =>
    obtain ⟨session, -, hfire⟩ := Option.bind_eq_some_iff.mp hstep
    split at hfire
    · cases hfire
      have hfired : Inv options { s with
          pending := s.pending.set approvalId { session with timer := false } } :=
        h.congr rfl rfl rfl
      exact (finalizeApproval_ok hfired (f := ⟨.timer, approvalId, .timeout⟩)
        (ok_of_not_call rfl) now).launched
    · cases hfire
  | plan waitPlanId step =>
    obtain ⟨plan, -, rfl⟩ := Option.map_eq_some_iff.mp hstep
    exact h.congr rfl rfl rfl
  | resume k reading surfaceIssuanceId delivery =>
    obtain ⟨task, htask, hresume⟩ := Option.bind_eq_some_iff.mp hstep
    exact resumeTask_ok h htask hfound hresume

theorem inv_initial (rows : Rows) (plans : String → PlanStore) (broadcast : Bool) :
    Inv options (State.initial rows plans broadcast) where
  agreed := ⟨fun _ _ ho => absurd ho List.not_mem_nil, fun _ => Nat.zero_le 1⟩
  tasks := fun _ htask => absurd htask List.not_mem_nil

/-! ## Resolved rows stay -/

theorem finalizeApproval_rows (s : State) (f : Finalization) (now : Millis) :
    (s.finalizeApproval f now).1.rows = s.rows := by
  unfold State.finalizeApproval
  split
  · split <;> rfl
  · rfl

theorem resolveWith_rows (s : State) (approvalId : String) (call : ResolveCall)
    (record : Option ApprovalRecord) (reading : Reading) :
    (s.resolveWith options approvalId call record reading).1.rows = s.rows := by
  unfold State.resolveWith
  split
  · exact finalizeApproval_rows ..
  · rfl

theorem returned_rows (s : State) (k : Nat) (f : Finalization) (record : Option ApprovalRecord) :
    (s.returned k f record).rows = s.rows := by
  unfold State.returned
  split
  · split <;> rfl
  · rfl
  · rfl
  · rfl

theorem threw_rows (s : State) (k : Nat) (f : Finalization) (now : Millis) :
    (s.threw k f now).rows = s.rows := by
  unfold State.threw
  split
  · exact finalizeApproval_rows ..
  · rfl

theorem complete_rows (s : State) (k : Nat) (f : Finalization)
    (session : Option PendingApprovalSession) (record : ApprovalRecord) :
    (s.complete k f session record).rows = s.rows := by
  have hpromise : (s.resolvePromise f session).rows = s.rows := by
    unfold State.resolvePromise
    split
    · split <;> rfl
    · rfl
  refine (returned_rows ..).trans (Eq.trans ?_ hpromise)
  unfold State.broadcastResolved
  split <;> rfl

theorem saveCallback_rows (s : State) (k : Nat) (record : ApprovalRecord)
    (deliverOverride : Bool) (now : Millis) :
    (State.saveCallback options s k record deliverOverride now).rows = s.rows := by
  unfold State.saveCallback
  split
  · rfl
  · split
    · rfl
    · split
      · rfl
      · unfold State.deliverIfConversational
        split
        · rfl
        · dsimp only
          split
          · exact finalizeApproval_rows ..
          · split
            · exact finalizeApproval_rows ..
            · rfl

/-- What a step does to the rows: nothing, a pending save, or a resolution. -/
theorem resumeTask_rows {s s' : State} {k : Nat} {reading : Reading}
    {surfaceIssuanceId : String} {delivery : Delivery} {task : Task}
    (hstep : resumeTask options s k reading surfaceIssuanceId delivery task = some s')
    {id : String} {r : ApprovalRecord} (h : s.rows.Settled id r) : s'.rows.Settled id r := by
  have hsame : s'.rows = s.rows → s'.rows.Settled id r := fun hrows => by rwa [hrows]
  cases task with
  | started request =>
    unfold resumeTask at hstep
    dsimp only at hstep
    split at hstep
    · cases hstep
      exact h
    · split at hstep <;> cases hstep <;> exact h
  | listing request => cases hstep; exact h
  | restoring request records =>
    unfold resumeTask at hstep
    dsimp only at hstep
    split at hstep
    · split at hstep <;> cases hstep <;> exact h
    · split at hstep
      · cases hstep
        exact hsame (finalizeApproval_rows ..)
      · cases hstep
        exact h
  | saving record deliverOverride =>
    cases hstep
    exact h.savePending record
  | saved record deliverOverride =>
    cases hstep
    exact hsame (saveCallback_rows ..)
  | saveFailed record => cases hstep; exact h
  | delivering record responseChannel =>
    unfold resumeTask at hstep
    dsimp only at hstep
    split at hstep
    · cases hstep
      exact h
    · cases hstep
      exact hsame (finalizeApproval_rows ..)
    · cases hstep
      exact hsame (finalizeApproval_rows ..)
  | loading approvalId call => cases hstep; exact h
  | loaded approvalId call record =>
    cases hstep
    exact hsame (resolveWith_rows ..)
  | awaitingReady f ready =>
    unfold resumeTask at hstep
    dsimp only at hstep
    split at hstep
    · cases hstep
      exact h
    · cases hstep
      exact hsame (returned_rows ..)
    · cases hstep
  | resolving f session resolvedAt =>
    unfold resumeTask at hstep
    dsimp only at hstep
    split at hstep
    · cases hstep
      exact hsame (threw_rows ..)
    · cases hstep
      exact hsame (returned_rows ..)
    · next rows record hres =>
      have hkept := h.resolvePending f.approvalId f.resolution.state resolvedAt
        f.resolution.responseChannel
      rw [hres] at hkept
      cases hstep
      exact hkept
  | resolved f session record =>
    cases hstep
    refine hsame ?_
    unfold State.transitionPermissionWaitPlan
    split <;> rfl
  | transitioning f session record mark =>
    unfold resumeTask at hstep
    dsimp only at hstep
    split at hstep
    · cases hstep
      exact hsame (complete_rows ..)
    · cases hstep
  | ready => cases hstep
  | readyRejected => cases hstep
  | finished => cases hstep

/-- **A resolved row stays resolved as it is**, whatever step is taken. -/
theorem settled_step {s s' : State} {l : Step} (hstep : brokerStep options s l = some s')
    {id : String} {r : ApprovalRecord} (h : s.rows.Settled id r) : s'.rows.Settled id r := by
  have hsame : s'.rows = s.rows → s'.rows.Settled id r := fun hrows => by rwa [hrows]
  cases l with
  | setBroadcast => cases hstep; exact h
  | stop => cases hstep; exact h
  | start =>
    unfold brokerStep at hstep
    dsimp only at hstep
    split at hstep <;> cases hstep <;> exact h
  | request request =>
    unfold brokerStep at hstep
    dsimp only at hstep
    split at hstep <;> cases hstep <;> exact h
  | resolve approvalId call reading =>
    unfold brokerStep at hstep
    dsimp only at hstep
    split at hstep
    · cases hstep
      exact hsame (resolveWith_rows ..)
    · cases hstep
      exact h
  | timeout approvalId now =>
    obtain ⟨session, -, hfire⟩ := Option.bind_eq_some_iff.mp hstep
    split at hfire
    · cases hfire
      exact hsame (finalizeApproval_rows ..)
    · cases hfire
  | plan waitPlanId step =>
    obtain ⟨plan, -, rfl⟩ := Option.map_eq_some_iff.mp hstep
    exact h
  | resume k reading surfaceIssuanceId delivery =>
    obtain ⟨task, -, hresume⟩ := Option.bind_eq_some_iff.mp hstep
    exact resumeTask_rows hresume h

end

/-! ## Runs -/

/-- **Agreement**: in every run in which each resolution that finds its row resolved finds
its own decision there, whatever the store held and in whatever order requests, resolve
calls, timers, deliveries and their pieces come, everything seen of an approval agrees with
its resolved row in every state reached, the row is resolved at most once, and a resolved
row is the same in every later state. -/
theorem agreement (options : ApprovalBrokerOptions) (rows : Rows) (plans : String → PlanStore)
    (broadcast : Bool) (ls : List Step) (s : State)
    (hrun : (brokerLTS options).Run (State.initial rows plans broadcast) ls s)
    (hcond : (brokerLTS options).Always (State.initial rows plans broadcast) ls
      (FindsItsOwn options)) :
    (brokerLTS options).Throughout (State.initial rows plans broadcast) ls fun m =>
      Agreed m ∧ ∀ id record, m.rows.Settled id record → s.rows.Settled id record := by
  rintro ks rest m rfl hks
  obtain ⟨m', hm', hrest⟩ := LTS.Run.append_iff.mp hrun
  obtain rfl := hks.unique_partial hm'
  constructor
  · exact (hks.guarded (inv_initial rows plans broadcast) hcond.take
      fun a l b hstep hfound hinv => inv_step hstep hfound hinv).agreed
  · intro id record hsettled
    exact hrest.invariant hsettled fun a l b hstep h => settled_step hstep h

/-! ## Sample runs -/

/-- A broker with wait plans. -/
def sampleOptions : ApprovalBrokerOptions where
  permissionWaitPlanStore := true
  deliverConversationalApproval := false
  stableToken := fun _ kind => match kind with
    | .approve => "sab:7f3a"
    | .reject => "sab:c41e"
  projects := fun _ => true

/-- The permission to run a command. -/
def sampleRequest : ApprovalRequest where
  approvalId := "plan-1"
  goalId := "goal-1"
  timeoutMs := 1000
  task := .obj [("kind", .str "permission"), ("id", .str "task-1"),
    ("description", .str "run the tests"), ("action", .str "execute"),
    ("operation_summary", .str "run the tests"), ("risk_class", .str "high"),
    ("target", .obj []), ("state_epoch", .str "epoch-1"), ("wait_plan_id", .str "plan-1")]

/-- The wait plan of the request. -/
def samplePlans (waitPlanId : String) : PlanStore where
  row := if waitPlanId = "plan-1" then
      some { WaitPlan.samplePlan with
        state := .waitingForPermission
        resolvedAt := none }
    else none
  calls := []

def sampleState : State := .initial .empty samplePlans true

def sampleReading : Reading := ⟨10, 10⟩

/-- Task `k` goes on. -/
def sampleResume (k : Nat) : Step := .resume k sampleReading "issuance-1" .delivered

/-- The call that approves or denies the request. -/
def sampleAnswer (approved : Bool) : Step :=
  .resolve "plan-1" (.resolveApproval approved "http"
    { surfaceActionBindingId := some (if approved then "sab:7f3a" else "sab:c41e") }) sampleReading

/-- The request, up to the callback of its save. -/
def sampleRequested : List Step :=
  [.request sampleRequest, sampleResume 0, sampleResume 0, sampleResume 0, sampleResume 0]

/-- The request approved, and approved again while the first answer is on its way. -/
def sampleApprovedTwice : List Step :=
  sampleRequested ++ [sampleAnswer true, sampleAnswer true, sampleResume 0, sampleResume 1,
    sampleResume 2, sampleResume 1, sampleResume 1, .plan "plan-1" (.load 0 ⟨11, "event-1", 11⟩),
    .plan "plan-1" (.save 0), sampleResume 1, sampleResume 2, sampleResume 2,
    .plan "plan-1" (.load 1 ⟨12, "event-2", 12⟩), sampleResume 2]

theorem agreement_sample :
    ∃ s, (brokerLTS sampleOptions).Run sampleState sampleApprovedTwice s ∧ Agreed s ∧
      s.observed.length = 8 := by
  have hend : (LTS.execPartial (brokerStep sampleOptions) sampleState sampleApprovedTwice).any
      (fun s => decide (s.observed.length = 8)) = true := by decide +kernel
  obtain ⟨s, hs, hlength⟩ := (Option.any_eq_true _ _).mp hend
  have hrun : (brokerLTS sampleOptions).Run sampleState sampleApprovedTwice s :=
    LTS.run_execPartial hs
  have hall := agreement sampleOptions .empty samplePlans true sampleApprovedTwice s hrun
    (LTS.ExecPartialAlways.always (by decide +kernel))
  exact ⟨s, hrun, (hall sampleApprovedTwice [] s (by simp) hrun).1, of_decide_eq_true hlength⟩

/-- The request approved and denied before its save was through. The deny call moves the
wait plan first. -/
def sampleApprovedAndDenied : List Step :=
  sampleRequested ++ [sampleAnswer true, sampleAnswer false, sampleResume 0, sampleResume 1,
    sampleResume 2, sampleResume 1, sampleResume 2, sampleResume 2,
    .plan "plan-1" (.load 0 ⟨11, "event-1", 11⟩), .plan "plan-1" (.save 0), sampleResume 2]

/-- The row is approved; the wait plan is denied, and the deny call returned `true`. -/
def State.approvedAndDenied (s : State) : Bool :=
  (s.rows.get? "plan-1").any (fun record => decide (record.state = .approved))
  && (s.plans "plan-1").row.any (fun plan => decide (plan.state = .denied))
  && s.observed.any fun o => decide (o.1 = "plan-1") && match o.2 with
    | .returnedTrue approved => !approved
    | _ => false

/-- **An approval approved and denied**: the deny call finds the approved row, moves the
wait plan to denied all the same, and returns `true`. -/
theorem approved_and_denied :
    ∃ s, (brokerLTS sampleOptions).Run sampleState sampleApprovedAndDenied s ∧
      (∃ plan, (s.plans "plan-1").row = some plan ∧ plan.state = .denied) ∧ ¬ Agreed s := by
  have hend : (LTS.execPartial (brokerStep sampleOptions) sampleState
      sampleApprovedAndDenied).any State.approvedAndDenied = true := by decide +kernel
  obtain ⟨s, hs, hboth⟩ := (Option.any_eq_true _ _).mp hend
  obtain ⟨hrest, hobserved⟩ := Bool.and_eq_true_iff.mp hboth
  obtain ⟨hrow, hplan⟩ := Bool.and_eq_true_iff.mp hrest
  obtain ⟨record, hrecord, happroved⟩ := (Option.any_eq_true _ _).mp hrow
  obtain ⟨plan, hstored, hdenied⟩ := (Option.any_eq_true _ _).mp hplan
  refine ⟨s, LTS.run_execPartial hs, ⟨plan, hstored, of_decide_eq_true hdenied⟩, fun h => ?_⟩
  obtain ⟨⟨id, o⟩, ho, hreturned⟩ := List.any_eq_true.mp hobserved
  obtain ⟨hid, hreturned⟩ := Bool.and_eq_true_iff.mp hreturned
  obtain rfl : id = "plan-1" := of_decide_eq_true hid
  obtain ⟨r, hsettled, hagrees⟩ := h.agrees _ _ ho
  obtain rfl : r = record := Option.some.inj (hsettled.1.symm.trans hrecord)
  have hstate : r.state = .approved := of_decide_eq_true happroved
  cases o with
  | returnedTrue approved =>
    obtain rfl : approved = false := by simpa using hreturned
    exact absurd (hstate.symm.trans hagrees) (by decide)
  | resolvedRow _ | promise _ _ | approvalResolved _ _ _ _ | transition _ _ => cases hreturned

end PulSeed.Approval
