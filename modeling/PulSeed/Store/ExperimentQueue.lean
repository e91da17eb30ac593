import Mathlib.Data.List.Nodup
import PulSeed.Lib.LoadSave
import PulSeed.Lib.Traverse
import PulSeed.Runtime.Envelope

/-!
# The experiment queue (`runtime/store/experiment-queue-store.ts`)

A queue is one stored document: its revisions, each with its items. A revision is designed,
then frozen; the items of a frozen one are claimed and get their results. Every mutation
loads the document, computes a new one and saves it, in two steps of the store.

`Kept` is what every mutation keeps: the revisions, the configs of their items, and items
that are finished. Distinct mutations may write over each other all the same:

- `permanent_of_current`: **in a run in which every save finds the document that its call
  loaded, a recorded result stays, a finished item stays as it is, a frozen revision keeps
  its items and configs, and a revision is completed exactly when it has items and all of
  them are finished.**

Times are texts in the form that the schema asks for. The idempotency key and the titles are
left out: no mutation reads them.
-/

namespace PulSeed.ExperimentQueueStore

/-! ## Queues -/

/-- `RuntimeExperimentQueuePhaseSchema`. -/
inductive Phase where
  | designing
  | executing_frozen_queue
  deriving DecidableEq, Repr

instance : ToString Phase where
  toString
    | .designing => "designing"
    | .executing_frozen_queue => "executing_frozen_queue"

/-- `RuntimeExperimentQueueRevisionStatusSchema`. -/
inductive RevisionStatus where
  | draft
  | frozen
  | executing
  | completed
  | blocked
  deriving DecidableEq, Repr

/-- `RuntimeExperimentQueueItemStatusSchema`. -/
inductive ItemStatus where
  | pending
  | running
  | succeeded
  | failed
  | skipped
  | cancelled
  deriving DecidableEq, Repr

instance : ToString ItemStatus where
  toString
    | .pending => "pending"
    | .running => "running"
    | .succeeded => "succeeded"
    | .failed => "failed"
    | .skipped => "skipped"
    | .cancelled => "cancelled"

/-- `TERMINAL_ITEM_STATUSES.has(status)`. -/
def ItemStatus.terminal : ItemStatus → Bool
  | .pending | .running => false
  | .succeeded | .failed | .skipped | .cancelled => true

/-- The statuses of `RuntimeExperimentQueueItemResultInput`. -/
inductive ResultStatus where
  | succeeded
  | failed
  | skipped
  | cancelled
  deriving DecidableEq, Repr

def ResultStatus.toItemStatus : ResultStatus → ItemStatus
  | .succeeded => .succeeded
  | .failed => .failed
  | .skipped => .skipped
  | .cancelled => .cancelled

/-- `RuntimeExperimentQueueItem`. -/
structure Item where
  item_id : String
  config : List (String × Json)
  status : ItemStatus := .pending
  output_artifacts : List Json := []
  metrics : List Json := []
  error : Option String := none
  claimed_by : Option String := none
  started_at : Option String := none
  completed_at : Option String := none
  updated_at : String
  provenance : Json

/-- `RuntimeExperimentQueueRevision`. -/
structure Revision where
  version : ℕ
  phase : Phase := .designing
  status : RevisionStatus := .draft
  revision_of : Option ℕ := none
  revision_reason : Option String := none
  created_at : String
  frozen_at : Option String := none
  updated_at : String
  provenance : Json
  items : List Item

/-- `RuntimeExperimentQueueRecord`. -/
structure Queue where
  queue_id : String
  current_version : ℕ
  created_at : String
  updated_at : String
  revisions : List Revision

/-- `items.length > 0 && items.every((item) => TERMINAL_ITEM_STATUSES.has(item.status))`. -/
def complete (items : List Item) : Bool := items ≠ [] && items.all (·.status.terminal)

/-! ## What the schema checks -/

/-- An issue of the schema of a queue. A revision is given by its index, except in the issues
of the refinement: these have its version. -/
inductive Issue where
  /-- Path `item_id`, when an item is made. -/
  | item_id_too_small
  /-- Path `current_version`. -/
  | current_version_out_of_range
  /-- Path `revisions`, index, `version`. -/
  | version_out_of_range (index : ℕ)
  /-- Path `revisions`, index, `revision_of`. -/
  | revision_of_out_of_range (index : ℕ)
  /-- Path `revisions`, index, `revision_reason`. -/
  | revision_reason_too_small (index : ℕ)
  /-- Path `current_version`. -/
  | current_version_missing (version : ℕ)
  /-- Path `revisions`, version, `items`, item. -/
  | duplicate_item (version : ℕ) (item_id : String)
  deriving DecidableEq, Repr

/-- What a call throws: an error of its own, or that of the schema. -/
inductive QueueError where
  | thrown (message : String)
  | schema (issues : List Issue)
  deriving DecidableEq, Repr

/-- The items whose id has been `seen` before them. -/
def duplicates (seen : List String) : List Item → List String
  | [] => []
  | item :: items =>
    if item.item_id ∈ seen then item.item_id :: duplicates seen items
    else duplicates (item.item_id :: seen) items

/-- `RuntimeExperimentQueuePositiveSafeIntSchema`. -/
def safe (version : ℕ) : Bool := 0 < version && version ≤ 9007199254740991

/-- The issues of the fields of a revision. -/
def Revision.issues (revision : Revision) (index : ℕ) : List Issue :=
  (if safe revision.version then [] else [.version_out_of_range index]) ++
  (if revision.revision_of.all safe then [] else [.revision_of_out_of_range index]) ++
  (if revision.revision_reason = some "" then [.revision_reason_too_small index] else [])

/-- The checks of `RuntimeExperimentQueueRecordSchema`: those of the fields, and those of the
refinement. -/
def Queue.issues (queue : Queue) : List Issue :=
  (if safe queue.current_version then [] else [.current_version_out_of_range]) ++
  queue.revisions.zipIdx.flatMap (fun (revision, index) => revision.issues index) ++
  (if queue.current_version ∈ queue.revisions.map (·.version) then []
    else [.current_version_missing queue.current_version]) ++
  queue.revisions.flatMap fun revision =>
    (duplicates [] revision.items).map (.duplicate_item revision.version)

/-- `RuntimeExperimentQueueRecordSchema.parse`, in `save`. -/
def parse (queue : Queue) : Except QueueError Queue :=
  if queue.issues = [] then .ok queue else .error (.schema queue.issues)

/-! ## Mutations -/

/-- `RuntimeExperimentQueueItemInput`. -/
structure ItemInput where
  item_id : String
  config : List (String × Json)
  provenance : Json

/-- `normalizeItem`. -/
def normalizeItem (updatedAt : String) (input : ItemInput) : Except QueueError Item :=
  if input.item_id = "" then .error (.schema [.item_id_too_small])
  else .ok {
    item_id := input.item_id
    config := input.config
    updated_at := updatedAt
    provenance := input.provenance }

/-- `currentRevision`. -/
def currentRevision (queue : Queue) : Except QueueError Revision :=
  match queue.revisions.find? (·.version == queue.current_version) with
  | some revision => .ok revision
  | none => .error (.thrown s!"Experiment queue {queue.queue_id} current version is missing")

/-- The updater of `freeze`. -/
def freeze (queue : Queue) (frozenAt : String) : Except QueueError Queue := do
  let revision ← currentRevision queue
  if revision.phase = .executing_frozen_queue then return queue
  return { queue with
    updated_at := frozenAt
    revisions := queue.revisions.map fun candidate =>
      if candidate.version = revision.version then { candidate with
        phase := .executing_frozen_queue
        status := .frozen
        frozen_at := some frozenAt
        updated_at := frozenAt }
      else candidate }

/-- `RuntimeExperimentQueueRevisionInput`, with the time of the revision. -/
structure RevisionInput where
  reason : String
  created_at : String
  provenance : Json
  items : List ItemInput

/-- `Math.max(...versions)`. -/
def maxVersion (revisions : List Revision) : ℕ := (revisions.map (·.version)).foldl max 0

/-- The updater of `appendRevision`. -/
def appendRevision (queue : Queue) (input : RevisionInput) : Except QueueError Queue := do
  let current ← currentRevision queue
  let nextVersion := maxVersion queue.revisions + 1
  let items ← input.items.mapM (normalizeItem input.created_at)
  return { queue with
    current_version := nextVersion
    updated_at := input.created_at
    revisions := queue.revisions ++ [{
      version := nextVersion
      revision_of := some current.version
      revision_reason := some input.reason
      created_at := input.created_at
      updated_at := input.created_at
      provenance := input.provenance
      items := items }] }

/-- `assertFrozenExecution`. -/
def assertFrozenExecution (revision : Revision) : Except QueueError Unit :=
  if revision.phase ≠ .executing_frozen_queue then .error <| .thrown
    s!"Experiment queue revision v{revision.version} is still in {revision.phase}"
  else .ok ()

/-- One revision in `updateItem`. -/
def updateRevision (itemId updatedAt : String)
    (updater : Item → Revision → Except QueueError Item) (revision : Revision) :
    Except QueueError Revision := do
  let items ← revision.items.mapM fun item =>
    if item.item_id = itemId then updater item revision else .ok item
  if revision.items.any (·.item_id == itemId) then
    return { revision with
      status := if complete items then .completed else .executing
      updated_at := updatedAt
      items := items }
  else return revision

/-- `updateItem`. The versions of the revisions are distinct, so one of them is updated. -/
def updateItem (queue : Queue) (version : Option ℕ) (itemId updatedAt : String)
    (updater : Item → Revision → Except QueueError Item) : Except QueueError Queue := do
  let targetVersion := version.getD queue.current_version
  let revisions ← queue.revisions.mapM fun revision =>
    if revision.version = targetVersion then updateRevision itemId updatedAt updater revision
    else .ok revision
  match queue.revisions.find? (·.version == targetVersion) with
  | none => .error (.thrown
      s!"Experiment queue revision not found: {queue.queue_id} v{targetVersion}")
  | some revision =>
    if revision.items.any (·.item_id == itemId) then
      return { queue with updated_at := updatedAt, revisions := revisions }
    else .error (.thrown
      s!"Experiment queue item not found: {queue.queue_id} v{targetVersion} {itemId}")

/-- The input of `markItemRunning`, with the time of the start. -/
structure RunningInput where
  version : Option ℕ := none
  item_id : String
  claimed_by : Option String := none
  started_at : String

/-- The updater of `markItemRunning` for the item. -/
def markRunning (input : RunningInput) (item : Item) (revision : Revision) :
    Except QueueError Item := do
  assertFrozenExecution revision
  if item.status.terminal then return item
  return { item with
    status := .running
    claimed_by := (input.claimed_by.filter (· ≠ "")).or item.claimed_by
    started_at := item.started_at.or (some input.started_at)
    updated_at := input.started_at }

/-- `RuntimeExperimentQueueItemResultInput`, with the time of the completion. -/
structure ResultInput where
  version : Option ℕ := none
  item_id : String
  status : ResultStatus
  completed_at : String
  output_artifacts : Option (List Json) := none
  metrics : Option (List Json) := none
  error : Option String := none

/-- The updater of `recordItemResult` for the item. -/
def recordResult (input : ResultInput) (item : Item) (revision : Revision) :
    Except QueueError Item := do
  assertFrozenExecution revision
  if item.status.terminal then
    if item.status ≠ input.status.toItemStatus then
      .error (.thrown s!"Experiment queue item {item.item_id} already finished as {item.status}")
    else return item
  else return { item with
    status := input.status.toItemStatus
    output_artifacts := input.output_artifacts.getD item.output_artifacts
    metrics := input.metrics.getD item.metrics
    error := (input.error.filter (· ≠ "")).or item.error
    completed_at := some input.completed_at
    updated_at := input.completed_at }

/-! ## Calls -/

/-- A call of the store on a queue; `now` is what the clock shows. -/
inductive Call where
  | freeze (frozenAt : String)
  | appendRevision (input : RevisionInput)
  | markItemRunning (input : RunningInput) (now : String)
  | recordItemResult (input : ResultInput) (now : String)

/-- The updater of a call. -/
def Call.updater (queue : Queue) : Call → Except QueueError Queue
  | .freeze frozenAt => ExperimentQueueStore.freeze queue frozenAt
  | .appendRevision input => ExperimentQueueStore.appendRevision queue input
  | .markItemRunning input now =>
    updateItem queue input.version input.item_id now (markRunning input)
  | .recordItemResult input now =>
    updateItem queue input.version input.item_id now (recordResult input)

/-- What a call saves, from the queue that it loaded. -/
def update (call : Call) (queue : Queue) : Except QueueError Queue :=
  call.updater queue >>= parse

/-- The system of the calls on one queue. -/
def queueSystem : LTS (LoadSave.State Call Queue) (LoadSave.Event Call) :=
  LoadSave.system update

/-- `RuntimeExperimentQueueCreateInput`, with the time of the creation. -/
structure CreateInput where
  queue_id : String
  created_at : String
  provenance : Json
  items : List ItemInput

/-- What `create` saves. -/
def create (input : CreateInput) : Except QueueError Queue := do
  let items ← input.items.mapM (normalizeItem input.created_at)
  parse {
    queue_id := input.queue_id
    current_version := 1
    created_at := input.created_at
    updated_at := input.created_at
    revisions := [{
      version := 1
      created_at := input.created_at
      updated_at := input.created_at
      provenance := input.provenance
      items := items }] }

/-! ## What every mutation keeps -/

/-- An item is still the same one, with its config, and as it is when it is finished. -/
structure ItemKept (a b : Item) : Prop where
  id : b.item_id = a.item_id
  config : b.config = a.config
  finished : a.status.terminal = true → b = a

/-- A revision has its items, and stays frozen. -/
structure RevisionKept (a b : Revision) : Prop where
  version : b.version = a.version
  phase : a.phase = .executing_frozen_queue → b.phase = .executing_frozen_queue
  items : List.Forall₂ ItemKept a.items b.items

/-- A queue has its revisions, in their order, and maybe more. -/
def Kept (a b : Queue) : Prop :=
  ∃ revisions, revisions <+: b.revisions ∧ List.Forall₂ RevisionKept a.revisions revisions

theorem ItemKept.refl (a : Item) : ItemKept a a := ⟨rfl, rfl, fun _ => rfl⟩

theorem ItemKept.trans {a b c : Item} (h : ItemKept a b) (h' : ItemKept b c) : ItemKept a c where
  id := h'.id.trans h.id
  config := h'.config.trans h.config
  finished ha := by
    obtain rfl := h.finished ha
    exact h'.finished ha

theorem RevisionKept.refl (a : Revision) : RevisionKept a a :=
  ⟨rfl, fun h => h, List.forall₂_same.mpr fun item _ => ItemKept.refl item⟩

theorem forall₂_trans {α : Type} {R : α → α → Prop} (hR : ∀ a b c, R a b → R b c → R a c)
    {l m n : List α} (h : List.Forall₂ R l m) (h' : List.Forall₂ R m n) : List.Forall₂ R l n := by
  induction h generalizing n with
  | nil => exact h'
  | cons hab _ ih =>
    cases h' with
    | cons hbc h' => exact .cons (hR _ _ _ hab hbc) (ih h')

theorem RevisionKept.trans {a b c : Revision} (h : RevisionKept a b) (h' : RevisionKept b c) :
    RevisionKept a c where
  version := h'.version.trans h.version
  phase ha := h'.phase (h.phase ha)
  items := forall₂_trans (R := ItemKept) (fun _ _ _ => ItemKept.trans) h.items h'.items

theorem Kept.refl (a : Queue) : Kept a a :=
  ⟨a.revisions, List.prefix_rfl, List.forall₂_same.mpr fun r _ => RevisionKept.refl r⟩

theorem Kept.trans {a b c : Queue} (h : Kept a b) (h' : Kept b c) : Kept a c := by
  obtain ⟨bs, ⟨rest, hbs⟩, hab⟩ := h
  obtain ⟨cs, hcs, hbc⟩ := h'
  rw [← hbs] at hbc
  -- the revisions of `c` that come from those of `a`
  have hbc₁ : List.Forall₂ RevisionKept bs (cs.take bs.length) :=
    (List.forall₂_take_append cs bs rest hbc.flip).flip
  exact ⟨cs.take bs.length, (List.take_prefix _ cs).trans hcs,
    forall₂_trans (R := RevisionKept) (fun _ _ _ => RevisionKept.trans) hab hbc₁⟩

/-- The revision with a version. -/
def Queue.revision? (queue : Queue) (version : ℕ) : Option Revision :=
  queue.revisions.find? (·.version == version)

/-- The item with an id, in the revision with a version. -/
def Queue.item? (queue : Queue) (version : ℕ) (itemId : String) : Option Item :=
  (queue.revision? version).bind fun revision => revision.items.find? (·.item_id == itemId)

/-- Related lists answer a search for a property that the relation keeps with related members. -/
theorem find?_forall₂ {α : Type} {R : α → α → Prop} {p : α → Bool}
    (hp : ∀ a b, R a b → p b = p a) {l l' : List α} (h : List.Forall₂ R l l') {a : α}
    (ha : l.find? p = some a) : ∃ b, l'.find? p = some b ∧ R a b := by
  induction h with
  | nil => cases ha
  | cons hxy _ ih =>
    rw [List.find?_cons] at ha ⊢
    rw [hp _ _ hxy]
    split at ha
    · next hx =>
      obtain rfl := Option.some.inj ha
      exact ⟨_, rfl, hxy⟩
    · next hx => exact ih ha

theorem Kept.revision? {a b : Queue} (h : Kept a b) {version : ℕ} {r : Revision}
    (hr : a.revision? version = some r) :
    ∃ r', b.revision? version = some r' ∧ RevisionKept r r' := by
  obtain ⟨revisions, ⟨rest, hrest⟩, hall⟩ := h
  obtain ⟨r', hr', hkept⟩ := find?_forall₂
    (fun a b hab => by rw [hab.version]) hall hr
  refine ⟨r', ?_, hkept⟩
  unfold Queue.revision?
  rw [← hrest, List.find?_append, hr']
  rfl

theorem Kept.item? {a b : Queue} (h : Kept a b) {version : ℕ} {itemId : String} {item : Item}
    (hitem : a.item? version itemId = some item) :
    ∃ item', b.item? version itemId = some item' ∧ ItemKept item item' := by
  obtain ⟨r, hr, hfind⟩ := Option.bind_eq_some_iff.mp hitem
  obtain ⟨r', hr', hkept⟩ := h.revision? hr
  obtain ⟨item', hitem', hitems⟩ := find?_forall₂ (fun a b hab => by rw [hab.id]) hkept.items hfind
  exact ⟨item', Option.bind_eq_some_iff.mpr ⟨r', hr', hitem'⟩, hitems⟩

/-! ## The mutations keep it -/

theorem assertFrozenExecution_ok {revision : Revision} {u : Unit}
    (h : assertFrozenExecution revision = .ok u) : revision.phase = .executing_frozen_queue := by
  unfold assertFrozenExecution at h
  split at h
  · cases h
  · next hphase => exact not_not.mp hphase

/-- What the updaters of an item have in common: they are for frozen revisions, and leave a
finished item as it is. -/
def KeepsItems (updater : Item → Revision → Except QueueError Item) : Prop :=
  ∀ item revision item', updater item revision = .ok item' →
    revision.phase = .executing_frozen_queue ∧ ItemKept item item'

theorem markRunning_keeps (input : RunningInput) : KeepsItems (markRunning input) := by
  intro item revision item' h
  unfold markRunning at h
  obtain ⟨_, hassert, h⟩ := bind_ok_iff.mp h
  refine ⟨assertFrozenExecution_ok hassert, ?_⟩
  split at h
  · cases h
    exact ItemKept.refl item
  · next hopen =>
    cases h
    exact ⟨rfl, rfl, fun hterminal => absurd hterminal hopen⟩

/-- A result is recorded for an item that has none, or is already the one that it has. -/
theorem recordResult_ok {input : ResultInput} {item item' : Item} {revision : Revision}
    (h : recordResult input item revision = .ok item') :
    revision.phase = .executing_frozen_queue ∧ item'.status = input.status.toItemStatus ∧
      ItemKept item item' := by
  unfold recordResult at h
  obtain ⟨_, hassert, h⟩ := bind_ok_iff.mp h
  refine ⟨assertFrozenExecution_ok hassert, ?_⟩
  split at h
  · split at h
    · cases h
    · next hsame =>
      cases h
      exact ⟨not_not.mp hsame, ItemKept.refl item⟩
  · next hopen =>
    cases h
    exact ⟨rfl, rfl, rfl, fun hterminal => absurd hterminal hopen⟩

theorem recordResult_keeps (input : ResultInput) : KeepsItems (recordResult input) := by
  intro item revision item' h
  obtain ⟨hphase, -, hkept⟩ := recordResult_ok h
  exact ⟨hphase, hkept⟩

/-- The items of a revision after an update of one of them. -/
theorem updateRevision_ok {itemId updatedAt : String}
    {updater : Item → Revision → Except QueueError Item} {revision revision' : Revision}
    (h : updateRevision itemId updatedAt updater revision = .ok revision') :
    (revision.items.any (·.item_id == itemId) = false ∧ revision' = revision) ∨
      (revision.items.any (·.item_id == itemId) = true ∧ ∃ items,
        List.Forall₂ (fun item item' => (if item.item_id = itemId then updater item revision
          else .ok item) = .ok item') revision.items items ∧
        revision' = { revision with
          status := if complete items then .completed else .executing
          updated_at := updatedAt
          items := items }) := by
  unfold updateRevision at h
  obtain ⟨items, hitems, h⟩ := bind_ok_iff.mp h
  split at h
  · next hany =>
    cases h
    exact .inr ⟨hany, items, mapM_ok_iff.mp hitems, rfl⟩
  · next hnone =>
    cases h
    exact .inl ⟨Bool.eq_false_iff.mpr hnone, rfl⟩

theorem updateRevision_keeps {itemId updatedAt : String}
    {updater : Item → Revision → Except QueueError Item} (hkeeps : KeepsItems updater)
    {revision revision' : Revision}
    (h : updateRevision itemId updatedAt updater revision = .ok revision') :
    RevisionKept revision revision' := by
  rcases updateRevision_ok h with ⟨-, rfl⟩ | ⟨-, items, hitems, rfl⟩
  · exact RevisionKept.refl _
  · refine ⟨rfl, fun hphase => hphase, hitems.imp fun item item' hitem => ?_⟩
    split at hitem
    · exact (hkeeps item revision item' hitem).2
    · cases hitem
      exact ItemKept.refl item

/-- The queue after an update of an item: the revision with the version is updated, and has
the item. -/
theorem updateItem_ok {queue queue' : Queue} {version : Option ℕ} {itemId updatedAt : String}
    {updater : Item → Revision → Except QueueError Item}
    (h : updateItem queue version itemId updatedAt updater = .ok queue') :
    ∃ revisions revision, List.Forall₂ (fun r r' =>
        (if r.version = version.getD queue.current_version then
          updateRevision itemId updatedAt updater r else .ok r) = .ok r')
        queue.revisions revisions ∧
      queue.revision? (version.getD queue.current_version) = some revision ∧
      revision.items.any (·.item_id == itemId) = true ∧
      queue' = { queue with updated_at := updatedAt, revisions := revisions } := by
  unfold updateItem at h
  obtain ⟨revisions, hrevisions, h⟩ := bind_ok_iff.mp h
  split at h
  · cases h
  · next revision hfind =>
    split at h
    · next hany =>
      cases h
      exact ⟨revisions, revision, mapM_ok_iff.mp hrevisions, hfind, hany, rfl⟩
    · cases h

theorem updateItem_keeps {queue queue' : Queue} {version : Option ℕ} {itemId updatedAt : String}
    {updater : Item → Revision → Except QueueError Item} (hkeeps : KeepsItems updater)
    (h : updateItem queue version itemId updatedAt updater = .ok queue') : Kept queue queue' := by
  obtain ⟨revisions, revision, hrevisions, -, -, rfl⟩ := updateItem_ok h
  refine ⟨revisions, List.prefix_rfl, hrevisions.imp fun r r' hr => ?_⟩
  split at hr
  · exact updateRevision_keeps hkeeps hr
  · cases hr
    exact RevisionKept.refl r

theorem parse_ok {queue queue' : Queue} (h : parse queue = .ok queue') : queue' = queue := by
  unfold parse at h
  split at h
  · cases h
    rfl
  · cases h

/-- **What a call keeps** of the queue that it loaded. -/
theorem update_keeps {call : Call} {queue queue' : Queue} (h : update call queue = .ok queue') :
    Kept queue queue' := by
  unfold update at h
  obtain ⟨updated, hupdater, hparse⟩ := bind_ok_iff.mp h
  obtain rfl := parse_ok hparse
  cases call with
  | freeze frozenAt =>
    have hupdater : freeze queue frozenAt = .ok queue' := hupdater
    unfold freeze at hupdater
    obtain ⟨revision, -, hupdater⟩ := bind_ok_iff.mp hupdater
    split at hupdater
    · cases hupdater
      exact Kept.refl queue
    · cases hupdater
      refine ⟨_, List.prefix_rfl, ?_⟩
      rw [List.forall₂_map_right_iff]
      refine List.forall₂_same.mpr fun candidate _ => ?_
      split
      · exact ⟨rfl, fun _ => rfl, (RevisionKept.refl candidate).items⟩
      · exact RevisionKept.refl candidate
  | appendRevision input =>
    have hupdater : appendRevision queue input = .ok queue' := hupdater
    unfold appendRevision at hupdater
    obtain ⟨current, -, hupdater⟩ := bind_ok_iff.mp hupdater
    obtain ⟨items, -, hupdater⟩ := bind_ok_iff.mp hupdater
    cases hupdater
    exact ⟨queue.revisions, List.prefix_append .., List.forall₂_same.mpr fun r _ =>
      RevisionKept.refl r⟩
  | markItemRunning input now => exact updateItem_keeps (markRunning_keeps input) hupdater
  | recordItemResult input now => exact updateItem_keeps (recordResult_keeps input) hupdater

/-! ## Which revisions are completed -/

theorem complete_iff {items : List Item} :
    complete items = true ↔ items ≠ [] ∧ ∀ item ∈ items, item.status.terminal = true := by
  unfold complete
  rw [Bool.and_eq_true, List.all_eq_true, decide_eq_true_eq]

theorem not_complete {items : List Item} (h : ∀ item ∈ items, item.status.terminal = false) :
    complete items = false := by
  cases items with
  | nil => rfl
  | cons item items =>
    unfold complete
    rw [List.all_cons, h item List.mem_cons_self, Bool.false_and, Bool.and_false]

/-- The versions are distinct, a revision is completed exactly when it is complete, and no
item of a revision that is being designed is finished. -/
structure Consistent (queue : Queue) : Prop where
  versions : (queue.revisions.map (·.version)).Nodup
  status : ∀ r ∈ queue.revisions, r.status = .completed ↔ complete r.items = true
  designing : ∀ r ∈ queue.revisions, r.phase = .designing →
    ∀ item ∈ r.items, item.status.terminal = false

theorem le_foldl_max (l : List ℕ) (start : ℕ) :
    start ≤ l.foldl max start ∧ ∀ x ∈ l, x ≤ l.foldl max start := by
  induction l generalizing start with
  | nil => exact ⟨le_rfl, nofun⟩
  | cons a l ih =>
    obtain ⟨hstart, hmem⟩ := ih (max start a)
    refine ⟨(le_max_left start a).trans hstart, fun x hx => ?_⟩
    rcases List.mem_cons.mp hx with rfl | hx
    · exact (le_max_right start x).trans hstart
    · exact hmem x hx

theorem mem_of_forall₂_right {α β : Type} {R : α → β → Prop} {l : List α} {l' : List β}
    (h : List.Forall₂ R l l') {b : β} (hb : b ∈ l') : ∃ a ∈ l, R a b := by
  induction h with
  | nil => cases hb
  | cons hab _ ih =>
    rcases List.mem_cons.mp hb with rfl | hb
    · exact ⟨_, List.mem_cons_self, hab⟩
    · obtain ⟨a, ha, hR⟩ := ih hb
      exact ⟨a, List.mem_cons_of_mem _ ha, hR⟩

theorem normalizeItem_pending {updatedAt : String} {inputs : List ItemInput} {items : List Item}
    (h : inputs.mapM (normalizeItem updatedAt) = .ok items) :
    ∀ item ∈ items, item.status.terminal = false := by
  intro item hitem
  obtain ⟨input, -, hnormal⟩ := mem_of_forall₂_right (mapM_ok_iff.mp h) hitem
  unfold normalizeItem at hnormal
  split at hnormal
  · cases hnormal
  · cases hnormal
    rfl

theorem create_consistent {input : CreateInput} {queue : Queue} (h : create input = .ok queue) :
    Consistent queue := by
  unfold create at h
  obtain ⟨items, hitems, h⟩ := bind_ok_iff.mp h
  obtain rfl := parse_ok h
  have hpending := normalizeItem_pending hitems
  constructor
  · exact List.nodup_singleton 1
  · intro r hr
    obtain rfl := List.mem_singleton.mp hr
    rw [not_complete hpending]
    exact ⟨nofun, nofun⟩
  · intro r hr _
    obtain rfl := List.mem_singleton.mp hr
    exact hpending

theorem currentRevision_ok {queue : Queue} {revision : Revision}
    (h : currentRevision queue = .ok revision) : revision ∈ queue.revisions := by
  unfold currentRevision at h
  split at h
  · next r hfind =>
    cases h
    exact List.mem_of_find?_eq_some hfind
  · cases h

theorem freeze_consistent {queue queue' : Queue} {frozenAt : String} (hq : Consistent queue)
    (h : freeze queue frozenAt = .ok queue') : Consistent queue' := by
  unfold freeze at h
  obtain ⟨revision, hcurrent, h⟩ := bind_ok_iff.mp h
  split at h
  · cases h
    exact hq
  · next hphase =>
    cases h
    have hmem := currentRevision_ok hcurrent
    have hopen : ∀ item ∈ revision.items, item.status.terminal = false := by
      refine hq.designing revision hmem ?_
      cases hp : revision.phase with
      | designing => rfl
      | executing_frozen_queue => exact absurd hp hphase
    -- the revisions with the version of the current one are that one
    have honly : ∀ r ∈ queue.revisions, r.version = revision.version → r = revision :=
      fun r hr heq => List.inj_on_of_nodup_map hq.versions hr hmem heq
    constructor
    · dsimp only
      rw [List.map_map]
      have hversions : ((·.version) ∘ fun candidate : Revision =>
          if candidate.version = revision.version then { candidate with
            phase := .executing_frozen_queue
            status := .frozen
            frozen_at := some frozenAt
            updated_at := frozenAt }
          else candidate) = (·.version) := by
        funext candidate
        show Revision.version (if _ then _ else _) = _
        split <;> rfl
      rw [hversions]
      exact hq.versions
    · intro r' hr'
      obtain ⟨r, hr, rfl⟩ := List.mem_map.mp hr'
      split
      · next heq =>
        obtain rfl := honly r hr heq
        rw [not_complete hopen]
        exact ⟨nofun, nofun⟩
      · exact hq.status r hr
    · intro r' hr' hdesigning
      obtain ⟨r, hr, rfl⟩ := List.mem_map.mp hr'
      split at hdesigning
      · cases hdesigning
      · next hne =>
        rw [if_neg hne]
        exact hq.designing r hr hdesigning

theorem appendRevision_consistent {queue queue' : Queue} {input : RevisionInput}
    (hq : Consistent queue) (h : appendRevision queue input = .ok queue') :
    Consistent queue' := by
  unfold appendRevision at h
  obtain ⟨current, -, h⟩ := bind_ok_iff.mp h
  obtain ⟨items, hitems, h⟩ := bind_ok_iff.mp h
  cases h
  have hpending := normalizeItem_pending hitems
  constructor
  · dsimp only
    rw [List.map_append]
    refine List.Nodup.append hq.versions (List.nodup_singleton _) ?_
    intro version hold hnew
    obtain rfl : version = maxVersion queue.revisions + 1 := List.mem_singleton.mp hnew
    have hle := (le_foldl_max (queue.revisions.map (·.version)) 0).2 _ hold
    unfold maxVersion at hle
    omega
  · intro r hr
    rcases List.mem_append.mp hr with hr | hr
    · exact hq.status r hr
    · obtain rfl := List.mem_singleton.mp hr
      rw [not_complete hpending]
      exact ⟨nofun, nofun⟩
  · intro r hr hdesigning
    rcases List.mem_append.mp hr with hr | hr
    · exact hq.designing r hr hdesigning
    · obtain rfl := List.mem_singleton.mp hr
      exact hpending

/-- An update of an item finds its revision frozen. -/
theorem updateRevision_frozen {itemId : String}
    {updater : Item → Revision → Except QueueError Item} (hkeeps : KeepsItems updater)
    {revision : Revision} {items : List Item}
    (hany : revision.items.any (·.item_id == itemId) = true)
    (hitems : List.Forall₂ (fun item item' => (if item.item_id = itemId then
      updater item revision else .ok item) = .ok item') revision.items items) :
    revision.phase = .executing_frozen_queue := by
  obtain ⟨item, hitem, heq⟩ := List.any_eq_true.mp hany
  obtain ⟨item', -, hupdated⟩ := mapM_ok_mem (mapM_ok_iff.mpr hitems) hitem
  rw [if_pos (beq_iff_eq.mp heq)] at hupdated
  exact (hkeeps item revision item' hupdated).1

theorem updateItem_consistent {queue queue' : Queue} {version : Option ℕ}
    {itemId updatedAt : String} {updater : Item → Revision → Except QueueError Item}
    (hkeeps : KeepsItems updater) (hq : Consistent queue)
    (h : updateItem queue version itemId updatedAt updater = .ok queue') : Consistent queue' := by
  obtain ⟨revisions, revision, hrevisions, -, -, rfl⟩ := updateItem_ok h
  -- a revision is left as it is, or it is frozen and its status is computed anew
  have hcases : ∀ r ∈ queue.revisions, ∀ r', (if r.version = version.getD queue.current_version
      then updateRevision itemId updatedAt updater r else .ok r) = .ok r' →
      r' = r ∨ (r'.phase = .executing_frozen_queue ∧ r'.version = r.version ∧
        r'.status = if complete r'.items then .completed else .executing) := by
    intro r _ r' hr'
    split at hr'
    · rcases updateRevision_ok hr' with ⟨-, rfl⟩ | ⟨hany, items, hitems, rfl⟩
      · exact .inl rfl
      · have hfrozen : r.phase = .executing_frozen_queue :=
          updateRevision_frozen hkeeps hany hitems
        exact .inr ⟨hfrozen, rfl, rfl⟩
    · cases hr'
      exact .inl rfl
  constructor
  · dsimp only
    rw [map_eq_of_forall₂ hrevisions (f := (·.version)) fun r hr r' hr' => ?_]
    · exact hq.versions
    · rcases hcases r hr r' hr' with rfl | ⟨-, hversion, -⟩
      · rfl
      · exact hversion
  · intro r' hmem
    obtain ⟨r, hr, hr'⟩ := mem_of_forall₂_right hrevisions hmem
    rcases hcases r hr r' hr' with rfl | ⟨-, -, hstatus⟩
    · exact hq.status r' hr
    · rw [hstatus]
      cases complete r'.items with
      | true => exact ⟨fun _ => rfl, fun _ => rfl⟩
      | false => exact ⟨nofun, nofun⟩
  · intro r' hmem hdesigning
    obtain ⟨r, hr, hr'⟩ := mem_of_forall₂_right hrevisions hmem
    rcases hcases r hr r' hr' with rfl | ⟨hfrozen, -, -⟩
    · exact hq.designing r' hr hdesigning
    · rw [hfrozen] at hdesigning
      cases hdesigning

theorem update_consistent {call : Call} {queue queue' : Queue} (hq : Consistent queue)
    (h : update call queue = .ok queue') : Consistent queue' := by
  unfold update at h
  obtain ⟨updated, hupdater, hparse⟩ := bind_ok_iff.mp h
  obtain rfl := parse_ok hparse
  cases call with
  | freeze frozenAt => exact freeze_consistent hq hupdater
  | appendRevision input => exact appendRevision_consistent hq hupdater
  | markItemRunning input now => exact updateItem_consistent (markRunning_keeps input) hq hupdater
  | recordItemResult input now =>
    exact updateItem_consistent (recordResult_keeps input) hq hupdater

/-! ## Results -/

/-- **A result is recorded in the queue that its call saves.** -/
theorem recordItemResult_recorded {queue queue' : Queue} {input : ResultInput} {now : String}
    (h : update (.recordItemResult input now) queue = .ok queue') :
    ∃ item, queue'.item? (input.version.getD queue.current_version) input.item_id = some item ∧
      item.status = input.status.toItemStatus := by
  unfold update at h
  obtain ⟨updated, hupdater, hparse⟩ := bind_ok_iff.mp h
  obtain rfl := parse_ok hparse
  obtain ⟨revisions, revision, hrevisions, hfind, hany, rfl⟩ := updateItem_ok hupdater
  obtain ⟨r', hr', hupdated⟩ := find?_forall₂ (fun r r' hr => by
    split at hr
    · rw [(updateRevision_keeps (recordResult_keeps input) hr).version]
    · cases hr
      rfl) hrevisions hfind
  have hversion := beq_iff_eq.mp (List.find?_some (p := fun r : Revision =>
    r.version == input.version.getD queue.current_version) hfind)
  rw [if_pos hversion] at hupdated
  rcases updateRevision_ok hupdated with ⟨hnone, -⟩ | ⟨-, items, hitems, rfl⟩
  · rw [hany] at hnone
    cases hnone
  · obtain ⟨item, hitem⟩ : ∃ item, revision.items.find? (·.item_id == input.item_id) =
        some item := Option.isSome_iff_exists.mp (by rwa [List.find?_isSome, ← List.any_eq_true])
    obtain ⟨item', hitem', hresult⟩ := find?_forall₂ (fun a b hab => by
      split at hab
      · rw [(recordResult_keeps input a revision b hab).2.id]
      · cases hab
        rfl) hitems hitem
    have hid := beq_iff_eq.mp (List.find?_some (p := fun i : Item =>
      i.item_id == input.item_id) hitem)
    rw [if_pos hid] at hresult
    exact ⟨item', Option.bind_eq_some_iff.mpr ⟨_, hr', hitem'⟩, (recordResult_ok hresult).2.1⟩

theorem toItemStatus_terminal (status : ResultStatus) : status.toItemStatus.terminal = true := by
  cases status <;> rfl

/-! ## Whole runs -/

/-- **What the queue promises to its callers**, along a run that starts with a queue. -/
structure Permanent (queue : Queue) (events : List (LoadSave.Event Call)) : Prop where
  /-- A result whose call resolved is still recorded, as the call saved it. -/
  recorded : ∀ before n between after m m₁ m' input now loaded saved,
    events = before ++ .save n :: between ++ after →
    queueSystem.Run { stored := queue } before m → queueSystem.step m (.save n) m₁ →
    queueSystem.Run m₁ between m' →
    LoadSave.Saves update m n (.recordItemResult input now) loaded saved →
    ∃ item, item.status = input.status.toItemStatus ∧
      saved.item? (input.version.getD loaded.current_version) input.item_id = some item ∧
      m'.stored.item? (input.version.getD loaded.current_version) input.item_id = some item
  /-- An item that is finished stays as it is. -/
  finished : ∀ before between after m m', events = before ++ between ++ after →
    queueSystem.Run { stored := queue } before m → queueSystem.Run m between m' →
    ∀ version itemId item, m.stored.item? version itemId = some item →
      item.status.terminal = true → m'.stored.item? version itemId = some item
  /-- A revision that is frozen stays frozen, with its items and their configs. -/
  frozen : ∀ before between after m m', events = before ++ between ++ after →
    queueSystem.Run { stored := queue } before m → queueSystem.Run m between m' →
    ∀ version r, m.stored.revision? version = some r → r.phase = .executing_frozen_queue →
      ∃ r', m'.stored.revision? version = some r' ∧ r'.phase = .executing_frozen_queue ∧
        r'.items.map (fun item => (item.item_id, item.config)) =
          r.items.map (fun item => (item.item_id, item.config))
  /-- A revision is completed exactly when it has items and all of them are finished. -/
  completed : queueSystem.Throughout { stored := queue } events fun m =>
    ∀ r ∈ m.stored.revisions, r.status = .completed ↔
      r.items ≠ [] ∧ ∀ item ∈ r.items, item.status.terminal = true

/-- **In a run in which every save finds the queue that its call loaded, results are
permanent.** -/
theorem permanent_of_current (input : CreateInput) (queue : Queue)
    (hcreate : create input = .ok queue) (events : List (LoadSave.Event Call))
    (hcurrent : queueSystem.Always { stored := queue } events (LoadSave.Current update)) :
    Permanent queue events := by
  -- what is stored at one point of the run is kept up to every later point
  have hkept : ∀ before between after m m', events = before ++ between ++ after →
      queueSystem.Run { stored := queue } before m → queueSystem.Run m between m' →
      Kept m.stored m'.stored := by
    rintro before between after m m' rfl hbefore hbetween
    exact LoadSave.run_stored (P := Kept m.stored)
      (fun call a b ha hupdate => ha.trans (update_keeps hupdate)) hbetween
      (hcurrent.take.drop hbefore) (Kept.refl m.stored)
  constructor
  · rintro before n between after m m₁ m' result now loaded saved rfl hbefore hstep hbetween hsaves
    obtain ⟨item, hitem, hstatus⟩ := recordItemResult_recorded hsaves.2
    have hstored : m₁.stored = saved := LoadSave.step_save hstep hsaves
    have hlater := hkept (before ++ [.save n]) between after m₁ m' (by simp)
      (hbefore.snoc hstep) hbetween
    rw [hstored] at hlater
    obtain ⟨item', hitem', hsame⟩ := hlater.item? hitem
    have hfinished : item.status.terminal = true := by
      rw [hstatus]
      exact toItemStatus_terminal result.status
    rw [hsame.finished hfinished] at hitem'
    exact ⟨item, hstatus, hitem, hitem'⟩
  · intro before between after m m' hsplit hbefore hbetween version itemId item hitem hfinished
    obtain ⟨item', hitem', hsame⟩ := (hkept before between after m m' hsplit hbefore
      hbetween).item? hitem
    rw [hsame.finished hfinished] at hitem'
    exact hitem'
  · intro before between after m m' hsplit hbefore hbetween version r hr hfrozen
    obtain ⟨r', hr', hsame⟩ := (hkept before between after m m' hsplit hbefore
      hbetween).revision? hr
    refine ⟨r', hr', hsame.phase hfrozen, map_eq_of_forall₂ hsame.items fun a _ b hab => ?_⟩
    rw [hab.id, hab.config]
  · rintro before after m rfl hbefore r hr
    have hconsistent : Consistent m.stored := LoadSave.run_stored
      (fun call a b ha hupdate => update_consistent ha hupdate) hbefore hcurrent.take
      (create_consistent hcreate)
    rw [hconsistent.status r hr, complete_iff]

/-! ## Sample runs -/

/-- A queue of two items. -/
def sampleInput : CreateInput where
  queue_id := "queue"
  created_at := "1"
  provenance := .null
  items := [{ item_id := "a", config := [], provenance := .null },
    { item_id := "b", config := [], provenance := .null }]

def sampleResult (itemId : String) : ResultInput where
  item_id := itemId
  status := .succeeded
  completed_at := "2"

/-- The queue that it creates. -/
def sampleQueue : Queue where
  queue_id := "queue"
  current_version := 1
  created_at := "1"
  updated_at := "1"
  revisions := [{
    version := 1
    created_at := "1"
    updated_at := "1"
    provenance := .null
    items := [{ item_id := "a", config := [], updated_at := "1", provenance := .null },
      { item_id := "b", config := [], updated_at := "1", provenance := .null }] }]

theorem permanent_of_current_sample :
    Permanent sampleQueue (LoadSave.inTurn [.freeze "1",
      .recordItemResult (sampleResult "a") "2", .recordItemResult (sampleResult "b") "2"]) :=
  permanent_of_current sampleInput sampleQueue rfl _ (LoadSave.current_inTurn update _ _)

/-- Two workers load the frozen queue, each to record the result of its item. -/
def sampleLoads : List (LoadSave.Event Call) :=
  LoadSave.inTurn [.freeze "1"] ++ [.load (.recordItemResult (sampleResult "a") "2"),
    .load (.recordItemResult (sampleResult "b") "2")]

/-- What they load. -/
def sampleFrozen : Queue := ((update (.freeze "1") sampleQueue).toOption).getD sampleQueue

/-- What the worker saves that records the result of the item. -/
def sampleSaved (itemId : String) : Queue :=
  ((update (.recordItemResult (sampleResult itemId) "2") sampleFrozen).toOption).getD sampleFrozen

theorem sampleLoads_run : queueSystem.Run { stored := sampleQueue } sampleLoads
    { stored := sampleFrozen
      pending := [(.recordItemResult (sampleResult "a") "2", sampleFrozen),
        (.recordItemResult (sampleResult "b") "2", sampleFrozen)] } :=
  LTS.run_execPartial rfl

/-- **A recorded result is lost**: the worker that saves last writes over the result of the
other. -/
theorem result_lost :
    ¬ Permanent sampleQueue (sampleLoads ++ [.save 0, .save 0]) := by
  intro h
  obtain ⟨item, hstatus, -, hlater⟩ := h.recorded sampleLoads 0 [.save 0] []
    { stored := sampleFrozen
      pending := [(.recordItemResult (sampleResult "a") "2", sampleFrozen),
        (.recordItemResult (sampleResult "b") "2", sampleFrozen)] }
    { stored := sampleSaved "a"
      pending := [(.recordItemResult (sampleResult "b") "2", sampleFrozen)] }
    { stored := sampleSaved "b" } (sampleResult "a") "2" sampleFrozen (sampleSaved "a")
    rfl sampleLoads_run rfl (LTS.run_execPartial rfl) ⟨rfl, rfl⟩
  have hpending : ((sampleSaved "b").item? 1 "a").map (·.status) = some .pending := by decide
  have hsucceeded := congrArg (Option.map (·.status)) hlater
  rw [show sampleFrozen.current_version = 1 from rfl] at hsucceeded
  have hboth := hpending.symm.trans hsucceeded
  rw [Option.map_some, hstatus] at hboth
  cases hboth

end PulSeed.ExperimentQueueStore
