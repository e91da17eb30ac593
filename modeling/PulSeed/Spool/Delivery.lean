import PulSeed.Spool.EventSpool

/-!
# Events are delivered once

A call of `processEvents` has an event from the moment at which it has renamed its file. Whatever
the interleaving, the file of a valid event is in the spool under its name, or exactly one call has
the event: the rename succeeds for one call only, and no name is written twice.

- `call_cases`, `write_cases`: what a file operation does to the spool, and what its call has
  after it.
- `Delivered`: the invariant; `Delivered.step` that every file operation keeps it.
- `delivered_once`: **a valid event is in the spool, or one call has it, runs and will return it, or
  has returned it.**
-/

namespace PulSeed

namespace EventSpool

variable {Content Event : Type} {readEvent : Reader Content Event}
  {older : Text × Event → Text × Event → Bool}

/-! ## What a call has -/

/-- The file of an event is in the archive. -/
def Archiving.moved : Archiving → Bool
  | .reserve _ _ | .rename _ => false
  | .list | .stat _ _ | .unlink _ => true

/-- The events that a call has moved and will return or has returned, with the names of their
files. -/
def Call.moved : Call Event → List (Text × Event)
  | .start => []
  | .loop _ events | .read _ _ events | .returned events => events
  | .archive phase fileName event _ events =>
    if phase.moved then events ++ [(fileName, event)] else events

/-- The event that a call has read and is about to move. -/
def Call.pending : Call Event → Option (Text × Event)
  | .archive phase fileName event _ _ => if phase.moved then none else some (fileName, event)
  | _ => none

/-- What a file operation of `processEvents` does: it leaves the spool as it is, and its call has
what it had and may have read an event; or it moves the event that the call has read. -/
inductive CallOutcome (readEvent : Reader Content Event) (d d' : Directories Content)
    (call call' : Call Event) : Prop where
  | kept : d'.events = d.events → call'.moved.Perm call.moved →
      (∀ pending, call'.pending = some pending → call.pending = some pending ∨
        ∃ content mtimeMs, d.events pending.1 = some (.file content mtimeMs) ∧
          readEvent content = some pending.2) →
      CallOutcome readEvent d d' call call'
  | moved {fileName event} : call.pending = some (fileName, event) → d.events fileName ≠ none →
      d'.events = Function.update d.events fileName none →
      call'.moved = call.moved ++ [(fileName, event)] → call'.pending = none →
      CallOutcome readEvent d d' call call'

theorem archive_cases {fileName : Text} {event : Event} {fileNames : List Text}
    {events : List (Text × Event)} {d d' : Directories Content} {phase : Archiving}
    {call : Call Event}
    (h : ArchiveStep fileName event fileNames events d phase d' call) :
    CallOutcome readEvent d d' (.archive phase fileName event fileNames events) call := by
  cases h with
  | reserved _ => exact .kept rfl (.refl _) fun _ h => .inl h
  | occupied _ _ _ _ _ => exact .kept rfl (.refl _) fun _ h => .inl h
  | unable _ _ _ _ => exact .kept rfl (.refl _) nofun
  | moved hentry => exact .moved rfl (by simp [hentry]) rfl rfl rfl
  | gone _ => exact .kept rfl (.refl _) nofun
  | listed _ => exact .kept rfl (.refl _) nofun
  | stated _ => exact .kept rfl (.refl _) nofun
  | passed _ => exact .kept rfl (.refl _) nofun
  | decided _ => exact .kept rfl (.refl _) nofun
  | unlinked _ => exact .kept rfl (.refl _) nofun
  | left _ => exact .kept rfl (.refl _) nofun
  | pruned => exact .kept rfl (.refl _) nofun

theorem call_cases {d d' : Directories Content} {call call' : Call Event}
    (h : CallStep readEvent older d call d' call') : CallOutcome readEvent d d' call call' := by
  cases h with
  | listed _ => exact .kept rfl (.refl _) nofun
  | stated _ => exact .kept rfl (.refl _) nofun
  | passed _ => exact .kept rfl (.refl _) nofun
  | parsed hentry hread =>
    refine .kept rfl (.refl _) fun pending h => .inr ?_
    cases h
    exact ⟨_, _, hentry, hread⟩
  | skipped _ => exact .kept rfl (.refl _) nofun
  | archived h => exact archive_cases h
  | returned => exact .kept rfl (List.mergeSort_perm _ _) nofun

/-- A write puts a file into the spool when it is done, and changes nothing before. -/
theorem write_cases {write : Write Content} {d d' : Directories Content}
    {writing writing' : Writing} (h : WriteStep write d writing d' writing') :
    (d'.events = d.events ∧ writing ≠ .written ∧ writing' ≠ .written) ∨
    writing ≠ .written ∧ writing' = .written ∧ ∃ mtimeMs, d'.events =
      Function.update d.events write.fileName (some (.file write.content mtimeMs)) := by
  cases h with
  | listed _ _ _ _ => exact .inl ⟨rfl, nofun, nofun⟩
  | refused _ _ => exact .inl ⟨rfl, nofun, nofun⟩
  | renamed mtimeMs => exact .inr ⟨nofun, rfl, mtimeMs, rfl⟩

/-! ## The invariant -/

variable (writes : ℕ → Write Content) (start : Directory Content)

/-- What has been put into the spool under a name: at the start, or by a write that is done. -/
def Origin (writers : ℕ → Writing) (name : Text) (entry : Entry Content) : Prop :=
  start name = some entry ∨ ∃ index mtimeMs, writers index = .written ∧
    (writes index).fileName = name ∧ entry = .file (writes index).content mtimeMs

/-- The names of files that are written are fresh. -/
structure Fresh : Prop where
  injective : Function.Injective fun index => (writes index).fileName
  absent : ∀ index, start (writes index).fileName = none

variable (readEvent) in
/-- Every file of the spool has been put there, and so has that of every event that a call has or
is about to move; what has been put there is there or one call has it. -/
structure Delivered (s : State Content Event) : Prop where
  present : ∀ name entry, s.events name = some entry → Origin writes start s.writers name entry
  pending : ∀ index name event, (s.calls index).pending = some (name, event) →
    ∃ content mtimeMs, Origin writes start s.writers name (.file content mtimeMs) ∧
      readEvent content = some event
  moved : ∀ index name event, (name, event) ∈ (s.calls index).moved →
    s.events name = none ∧
      ∃ content mtimeMs, Origin writes start s.writers name (.file content mtimeMs) ∧
        readEvent content = some event
  once : ∀ index index' name event event', (name, event) ∈ (s.calls index).moved →
    (name, event') ∈ (s.calls index').moved → index = index'
  nodup : ∀ index, ((s.calls index).moved.map (·.1)).Nodup
  kept : ∀ name entry, Origin writes start s.writers name entry →
    s.events name ≠ none ∨ ∃ index event, (name, event) ∈ (s.calls index).moved

variable {writes start}

/-- A name that has been put into the spool is not that of a write to come. -/
theorem Origin.ne (hfresh : Fresh writes start) {writers : ℕ → Writing} {name : Text}
    {entry : Entry Content} (h : Origin writes start writers name entry) {index : ℕ}
    (hwriter : writers index ≠ .written) : name ≠ (writes index).fileName := by
  rintro rfl
  rcases h with h | ⟨other, mtimeMs, hwritten, hname, -⟩
  · cases h.symm.trans (hfresh.absent index)
  · cases hfresh.injective hname
    exact hwriter hwritten

/-- The content of a file. -/
def Entry.content : Entry Content → Option Content
  | .directory => none
  | .file content _ => some content

/-- One name holds one content. -/
theorem Origin.content_eq (hfresh : Fresh writes start) {writers : ℕ → Writing} {name : Text}
    {entry entry' : Entry Content} (h : Origin writes start writers name entry)
    (h' : Origin writes start writers name entry') : entry.content = entry'.content := by
  rcases h with h | ⟨index, _, -, rfl, rfl⟩
  · rcases h' with h' | ⟨index, _, -, rfl, -⟩
    · cases h.symm.trans h'
      rfl
    · cases h.symm.trans (hfresh.absent index)
  · rcases h' with h' | ⟨index', _, -, hname, rfl⟩
    · cases h'.symm.trans (hfresh.absent index)
    · cases hfresh.injective hname
      rfl

/-! ## Every file operation keeps it -/

/-- A file operation that leaves the spool as it is keeps the invariant. -/
theorem Delivered.kept_call {s : State Content Event} (h : Delivered readEvent writes start s)
    {index : ℕ} {d : Directories Content} {call : Call Event} (hevents : d.events = s.events)
    (hmoved : call.moved.Perm (s.calls index).moved)
    (hpending : ∀ pending, call.pending = some pending →
      (s.calls index).pending = some pending ∨
        ∃ content mtimeMs, s.events pending.1 = some (.file content mtimeMs) ∧
          readEvent content = some pending.2) :
    Delivered readEvent writes start
      { s with toDirectories := d, calls := Function.update s.calls index call } := by
  have hcalls : ∀ other, (Function.update s.calls index call other).moved.Perm
      (s.calls other).moved := by
    intro other
    by_cases hother : other = index
    · rw [hother, Function.update_self]
      exact hmoved
    · rw [Function.update_of_ne hother]
  refine ⟨?_, ?_, ?_, ?_, ?_, ?_⟩
  · intro name entry hentry
    exact h.present name entry (hevents ▸ hentry)
  · intro other name event hother
    dsimp only at hother
    by_cases heq : other = index
    · rw [heq, Function.update_self] at hother
      rcases hpending _ hother with hold | ⟨content, mtimeMs, hentry, hread⟩
      · exact h.pending index name event hold
      · exact ⟨content, mtimeMs, h.present name _ hentry, hread⟩
    · rw [Function.update_of_ne heq] at hother
      exact h.pending other name event hother
  · intro other name event hmem
    obtain ⟨hnone, horigin⟩ := h.moved other name event ((hcalls other).mem_iff.mp hmem)
    exact ⟨(congrFun hevents name).trans hnone, horigin⟩
  · intro other other' name event event' hmem hmem'
    exact h.once other other' name event event' ((hcalls other).mem_iff.mp hmem)
      ((hcalls other').mem_iff.mp hmem')
  · intro other
    exact ((hcalls other).map _).nodup_iff.mpr (h.nodup other)
  · intro name entry horigin
    rcases h.kept name entry horigin with hpresent | ⟨other, event, hmem⟩
    · exact .inl ((congrFun hevents name) ▸ hpresent)
    · exact .inr ⟨other, event, (hcalls other).mem_iff.mpr hmem⟩

/-- The call that renames a file is the only one that has its event. -/
theorem Delivered.moved_call {s : State Content Event} (h : Delivered readEvent writes start s)
    {index : ℕ} {d : Directories Content} {call : Call Event} {fileName : Text} {event : Event}
    (hpending : (s.calls index).pending = some (fileName, event))
    (hpresent : s.events fileName ≠ none)
    (hevents : d.events = Function.update s.events fileName none)
    (hmoved : call.moved = (s.calls index).moved ++ [(fileName, event)])
    (hnone : call.pending = none) :
    Delivered readEvent writes start
      { s with toDirectories := d, calls := Function.update s.calls index call } := by
  -- nobody had the event before, since its file was there
  have hfree : ∀ other event', (fileName, event') ∉ (s.calls other).moved :=
    fun other event' hmem => hpresent (h.moved other fileName event' hmem).1
  have hcalls : ∀ other name event',
      (name, event') ∈ (Function.update s.calls index call other).moved ↔
        (name, event') ∈ (s.calls other).moved ∨
          other = index ∧ name = fileName ∧ event' = event := by
    intro other name event'
    by_cases hother : other = index
    · rw [hother, Function.update_self, hmoved]
      simp
    · rw [Function.update_of_ne hother]
      simp [hother]
  refine ⟨?_, ?_, ?_, ?_, ?_, ?_⟩
  · intro name entry hentry
    dsimp only at hentry
    by_cases hname : name = fileName
    · rw [hevents, hname, Function.update_self] at hentry
      cases hentry
    · rw [hevents, Function.update_of_ne hname] at hentry
      exact h.present name entry hentry
  · intro other name event' hother
    dsimp only at hother
    by_cases heq : other = index
    · rw [heq, Function.update_self, hnone] at hother
      cases hother
    · rw [Function.update_of_ne heq] at hother
      exact h.pending other name event' hother
  · intro other name event' hmem
    dsimp only
    rcases (hcalls other name event').mp hmem with hold | ⟨-, rfl, rfl⟩
    · obtain ⟨hgone, horigin⟩ := h.moved other name event' hold
      have hname : name ≠ fileName := fun heq => hfree other event' (heq ▸ hold)
      exact ⟨by rw [hevents, Function.update_of_ne hname]; exact hgone, horigin⟩
    · exact ⟨by rw [hevents, Function.update_self], h.pending index name event' hpending⟩
  · intro other other' name event₁ event₂ hmem hmem'
    rcases (hcalls other name event₁).mp hmem with hold | ⟨rfl, rfl, rfl⟩
    · rcases (hcalls other' name event₂).mp hmem' with hold' | ⟨-, rfl, -⟩
      · exact h.once other other' name event₁ event₂ hold hold'
      · exact absurd hold (hfree other event₁)
    · rcases (hcalls other' name event₂).mp hmem' with hold' | ⟨rfl, -, -⟩
      · exact absurd hold' (hfree other' event₂)
      · rfl
  · intro other
    dsimp only
    by_cases hother : other = index
    · rw [hother, Function.update_self, hmoved, List.map_append, List.map_singleton,
        List.nodup_append]
      refine ⟨h.nodup index, List.nodup_singleton _, ?_⟩
      intro name hname name' hname'
      obtain ⟨⟨_, event'⟩, hmem, rfl⟩ := List.mem_map.mp hname
      rw [List.mem_singleton.mp hname']
      rintro rfl
      exact hfree index event' hmem
    · rw [Function.update_of_ne hother]
      exact h.nodup other
  · intro name entry horigin
    dsimp only at horigin ⊢
    by_cases hname : name = fileName
    · exact .inr ⟨index, event, (hcalls index name event).mpr (.inr ⟨rfl, hname, rfl⟩)⟩
    · rcases h.kept name entry horigin with hkept | ⟨other, event', hmem⟩
      · exact .inl (by rw [hevents, Function.update_of_ne hname]; exact hkept)
      · exact .inr ⟨other, event', (hcalls other name event').mpr (.inl hmem)⟩

theorem origin_update {writers : ℕ → Writing} {index : ℕ} {writing : Writing} {name : Text}
    {entry : Entry Content} (hbefore : writers index ≠ .written) :
    Origin writes start (Function.update writers index writing) name entry ↔
      Origin writes start writers name entry ∨
        writing = .written ∧ (writes index).fileName = name ∧
          ∃ mtimeMs, entry = .file (writes index).content mtimeMs := by
  constructor
  · rintro (h | ⟨other, mtimeMs, hwritten, hname, hentry⟩)
    · exact .inl (.inl h)
    · by_cases hother : other = index
      · rw [hother, Function.update_self] at hwritten
        rw [hother] at hname hentry
        exact .inr ⟨hwritten, hname, mtimeMs, hentry⟩
      · rw [Function.update_of_ne hother] at hwritten
        exact .inl (.inr ⟨other, mtimeMs, hwritten, hname, hentry⟩)
  · rintro ((h | ⟨other, mtimeMs, hwritten, hname, hentry⟩) | ⟨rfl, hname, mtimeMs, hentry⟩)
    · exact .inl h
    · have hother : other ≠ index := fun heq => hbefore (heq ▸ hwritten)
      exact .inr ⟨other, mtimeMs, by rw [Function.update_of_ne hother]; exact hwritten, hname,
        hentry⟩
    · exact .inr ⟨index, mtimeMs, Function.update_self .., hname, hentry⟩

theorem Delivered.writer (hfresh : Fresh writes start) {s : State Content Event}
    (h : Delivered readEvent writes start s) {index : ℕ} {d : Directories Content}
    {writing : Writing}
    (hstep : WriteStep (writes index) s.toDirectories (s.writers index) d writing) :
    Delivered readEvent writes start
      { s with toDirectories := d, writers := Function.update s.writers index writing } := by
  have hbefore : s.writers index ≠ .written := by
    rcases write_cases hstep with ⟨-, hbefore, -⟩ | ⟨hbefore, -⟩
    · exact hbefore
    · exact hbefore
  have hold : ∀ {name entry}, Origin writes start s.writers name entry →
      Origin writes start (Function.update s.writers index writing) name entry :=
    fun horigin => (origin_update hbefore).mpr (.inl horigin)
  -- the names that are there or that a call has are not the one that is written
  have hevents : ∀ {name entry}, Origin writes start s.writers name entry →
      d.events name = s.events name := by
    intro name entry horigin
    rcases write_cases hstep with ⟨heq, -⟩ | ⟨-, -, mtimeMs, heq⟩
    · rw [heq]
    · rw [heq, Function.update_of_ne (horigin.ne hfresh hbefore)]
  refine ⟨?_, ?_, ?_, h.once, h.nodup, ?_⟩
  · intro name entry hentry
    dsimp only at hentry ⊢
    rcases write_cases hstep with ⟨heq, -⟩ | ⟨-, rfl, mtimeMs, heq⟩
    · rw [heq] at hentry
      exact hold (h.present name entry hentry)
    · rw [heq] at hentry
      by_cases hname : name = (writes index).fileName
      · rw [hname, Function.update_self] at hentry
        exact (origin_update hbefore).mpr
          (.inr ⟨rfl, hname.symm, mtimeMs, (Option.some.inj hentry).symm⟩)
      · rw [Function.update_of_ne hname] at hentry
        exact hold (h.present name entry hentry)
  · intro other name event hpending
    obtain ⟨content, mtimeMs, horigin, hread⟩ := h.pending other name event hpending
    exact ⟨content, mtimeMs, hold horigin, hread⟩
  · intro other name event hmem
    obtain ⟨hnone, content, mtimeMs, horigin, hread⟩ := h.moved other name event hmem
    exact ⟨(hevents horigin).trans hnone, content, mtimeMs, hold horigin, hread⟩
  · intro name entry horigin
    dsimp only at horigin ⊢
    rcases (origin_update hbefore).mp horigin with horigin | ⟨hwritten, rfl, -⟩
    · rw [hevents horigin]
      exact h.kept name entry horigin
    · rcases write_cases hstep with ⟨-, -, hafter⟩ | ⟨-, -, mtimeMs, heq⟩
      · exact absurd hwritten hafter
      · exact .inl (by rw [heq, Function.update_self]; exact Option.some_ne_none _)

theorem Delivered.step (hfresh : Fresh writes start) {s s' : State Content Event} {actor : Actor}
    (h : Delivered readEvent writes start s) (hstep : Step readEvent older writes s actor s') :
    Delivered readEvent writes start s' := by
  cases hstep with
  | call hcall =>
    cases call_cases hcall with
    | kept hevents hmoved hpending => exact h.kept_call hevents hmoved hpending
    | moved hpending hpresent hevents hmoved hnone =>
      exact h.moved_call hpending hpresent hevents hmoved hnone
  | writer hwrite => exact h.writer hfresh hwrite

/-! ## Runs -/

/-- No call has begun. -/
structure Initial (s : State Content Event) : Prop where
  calls : ∀ index, s.calls index = .start
  writers : ∀ index, s.writers index = .start

theorem Initial.delivered {s : State Content Event} (h : Initial s) :
    Delivered readEvent writes s.events s where
  present := fun _ _ hentry => .inl hentry
  pending := fun index _ _ hpending => by
    rw [h.calls index] at hpending
    cases hpending
  moved := fun index _ _ hmem => by
    rw [h.calls index] at hmem
    cases hmem
  once := fun index _ _ _ _ hmem => by
    rw [h.calls index] at hmem
    cases hmem
  nodup := fun index => by
    rw [h.calls index]
    exact List.nodup_nil
  kept := fun name entry horigin => by
    rcases horigin with hstart | ⟨index, _, hwritten, -⟩
    · exact .inl (by rw [hstart]; exact Option.some_ne_none _)
    · rw [h.writers index] at hwritten
      cases hwritten

/-- **Every event is delivered once**: in every state of a run, the file of a valid event that was
put into the spool is there with its content, and no call has the event; or the file is not there,
and exactly one call has the event, once. -/
theorem delivered_once {s₀ s : State Content Event} {actors : List Actor}
    (hrun : (spool readEvent older writes).Run s₀ actors s) (hinitial : Initial s₀)
    (hfresh : Fresh writes s₀.events) {name : Text} {content : Content} {mtimeMs : ℚ}
    {event : Event}
    (horigin : Origin writes s₀.events s.writers name (.file content mtimeMs))
    (hread : readEvent content = some event) :
    ((∃ mtimeMs, s.events name = some (.file content mtimeMs)) ∧
        ∀ index, name ∉ (s.calls index).moved.map (·.1)) ∨
      s.events name = none ∧ ∃ index, (name, event) ∈ (s.calls index).moved ∧
        ((s.calls index).moved.map (·.1)).Nodup ∧
        ∀ other, name ∈ (s.calls other).moved.map (·.1) → other = index := by
  have h : Delivered readEvent writes s₀.events s :=
    hrun.invariant hinitial.delivered fun _ _ _ hstep h => h.step hfresh hstep
  rcases h.kept name _ horigin with hpresent | ⟨index, event', hmem⟩
  · left
    obtain ⟨entry, hentry⟩ := Option.ne_none_iff_exists'.mp hpresent
    have hcontent := (h.present name entry hentry).content_eq hfresh horigin
    cases entry with
    | directory => cases hcontent
    | file content' mtimeMs' =>
      cases hcontent
      refine ⟨⟨mtimeMs', hentry⟩, fun index hmem => ?_⟩
      obtain ⟨⟨_, event'⟩, hmem', rfl⟩ := List.mem_map.mp hmem
      exact hpresent (h.moved index _ event' hmem').1
  · right
    obtain ⟨hnone, content', mtimeMs', horigin', hread'⟩ := h.moved index name event' hmem
    cases horigin.content_eq hfresh horigin'
    cases hread.symm.trans hread'
    refine ⟨hnone, index, hmem, h.nodup index, fun other hother => ?_⟩
    obtain ⟨⟨_, event'⟩, hmem', rfl⟩ := List.mem_map.mp hother
    exact h.once other index _ event' event hmem' hmem

/-! ## A sample run -/

section Sample

def sampleName : Text := utf16 "a.json"

/-- Writes under other names. -/
def sampleWrites (index : ℕ) : Write ℕ where
  fileName := List.replicate (index + 1) 98 ++ utf16 ".json"
  content := index
  byteLength := 1

/-- One call, with the directories. -/
def sampleState (d : Directories ℕ) (call : Call ℕ) : State ℕ ℕ where
  toDirectories := d
  calls := fun index => if index = 0 then call else .start
  writers := fun _ => .start

def sampleDirectories : Directories ℕ where
  events := fun name => if name = sampleName then some (.file 7 0) else none
  archive := fun _ => none

theorem sampleWrites_fresh : Fresh sampleWrites sampleDirectories.events where
  injective := fun index index' h => by
    have hlength := congrArg List.length h
    simp only [sampleWrites, List.length_append, List.length_replicate] at hlength
    omega
  absent := fun index => by
    dsimp only [sampleDirectories]
    refine if_neg fun h => ?_
    have hhead := congrArg List.head? h
    rw [show sampleName = 97 :: utf16 ".json" by decide +kernel] at hhead
    simp [sampleWrites, List.replicate_succ] at hhead

theorem sampleState_step {d d' : Directories ℕ} {call call' : Call ℕ}
    (h : CallStep some (fun _ _ => true) d call d' call') :
    (spool some (fun _ _ => true) sampleWrites).step (sampleState d call) (.call 0)
      (sampleState d' call') := by
  have hstep : Step some (fun _ _ => true) sampleWrites (sampleState d call) (.call 0)
      { sampleState d call with
        toDirectories := d', calls := Function.update (sampleState d call).calls 0 call' } :=
    .call h
  have hcalls : Function.update (sampleState d call).calls 0 call' =
      (sampleState d' call').calls := by
    funext index
    by_cases hindex : index = 0
    · rw [hindex, Function.update_self]
      rfl
    · rw [Function.update_of_ne hindex]
      simp [sampleState, hindex]
  rw [hcalls] at hstep
  exact hstep

/-- The directories when the event has been moved. -/
def movedDirectories : Directories ℕ where
  events := Function.update sampleDirectories.events sampleName none
  archive := Function.update sampleDirectories.archive sampleName (some (.file 7 0))

theorem sample_run : (spool some (fun _ _ => true) sampleWrites).Run
    (sampleState sampleDirectories .start) (List.replicate 5 (.call 0))
    (sampleState movedDirectories (.archive .list sampleName 7 [] [])) := by
  have hevent : sampleDirectories.events sampleName = some (.file 7 0) := by
    simp [sampleDirectories]
  have hlists : Lists sampleDirectories.events [sampleName] := by
    refine ⟨List.nodup_singleton _, fun name => ?_⟩
    rw [List.mem_singleton]
    by_cases hname : name = sampleName <;> simp [sampleDirectories, hname]
  have hlist : listEventSpoolJsonFiles [sampleName] EVENT_SPOOL_MAX_PENDING_FILES =
      [sampleName] := by
    decide +kernel
  have hfirst : CallStep some (fun _ _ => true) sampleDirectories .start sampleDirectories
      (.loop (listEventSpoolJsonFiles [sampleName] EVENT_SPOOL_MAX_PENDING_FILES) []) :=
    .listed hlists
  rw [hlist] at hfirst
  exact ((((LTS.Run.nil.snoc (sampleState_step hfirst)).snoc
    (sampleState_step (.stated hevent))).snoc (sampleState_step (.parsed hevent rfl))).snoc
    (sampleState_step (.archived (.reserved rfl)))).snoc
    (sampleState_step (.archived (.moved hevent)))

theorem sampleState_initial : Initial (sampleState sampleDirectories .start) where
  calls := fun index => by simp [sampleState]
  writers := fun _ => rfl

theorem delivered_once_sample :
    movedDirectories.events sampleName = none ∧ ∃ index, (sampleName, 7) ∈
      ((sampleState movedDirectories (.archive .list sampleName 7 [] [])).calls index).moved := by
  have horigin : Origin sampleWrites sampleDirectories.events (fun _ => .start) sampleName
      (.file 7 0) := .inl (by simp [sampleDirectories])
  rcases delivered_once sample_run sampleState_initial sampleWrites_fresh horigin rfl with
    ⟨⟨_, hpresent⟩, -⟩ | ⟨hnone, index, hmem, -⟩
  · simp [sampleState, movedDirectories] at hpresent
  · exact ⟨hnone, index, hmem⟩

/-- **Between the rename and the return**, an event is neither in the spool nor returned. -/
theorem event_under_way : ¬ ∀ (Content Event : Type) (readEvent : Reader Content Event)
    (older : Text × Event → Text × Event → Bool) (writes : ℕ → Write Content)
    (s₀ s : State Content Event) (actors : List Actor),
    (spool readEvent older writes).Run s₀ actors s → Initial s₀ → Fresh writes s₀.events →
    ∀ (name : Text) (content : Content) (mtimeMs : ℚ) (event : Event),
      Origin writes s₀.events s.writers name (.file content mtimeMs) →
      readEvent content = some event →
      (∃ index events, s.calls index = .returned events ∧ (name, event) ∈ events) ∨
        ∃ mtimeMs, s.events name = some (.file content mtimeMs) := by
  intro h
  rcases h ℕ ℕ some (fun _ _ => true) sampleWrites _ _ _ sample_run sampleState_initial
    sampleWrites_fresh sampleName 7 0 7 (.inl (by simp [sampleState, sampleDirectories])) rfl with
    ⟨index, events, hreturned, -⟩ | ⟨mtimeMs, hpresent⟩
  · by_cases hindex : index = 0
    · rw [hindex] at hreturned
      cases hreturned
    · simp [sampleState, hindex] at hreturned
  · simp [sampleState, movedDirectories] at hpresent

end Sample

end EventSpool

end PulSeed
