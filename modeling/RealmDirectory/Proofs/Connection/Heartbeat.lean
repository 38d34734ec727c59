import Mathlib.Data.List.Chain
import RealmDirectory.Hub.Mailbox
import RealmDirectory.Proofs.Connection.Watch

/-!
# Heartbeats fill the silence

A peer that takes every write at once hears something of an open connection at least once in every
`heartbeatPeriod`, and no heartbeat comes earlier than needed: each is written exactly a period
after the write before it, be that a heartbeat or a reply. What the peer writes moves a heartbeat
only if it is answered.

That the peer takes a write at once means that no time passes while bytes wait in the pipe to it.
Then no time passes during a write either, since an empty pipe has room, so the instant at which a
write is completed is the instant at which it was begun. A heartbeat is begun when its timer goes
off, and no time passes beyond that as long as nothing is under way.

## Main results

* `Watch.InPace.step` — what one step keeps.
* `Watch.paced_run` — the writes after any run.
-/

namespace RealmDirectory

namespace Connection

/-- While nothing is under way, the next timer goes off by the next heartbeat. -/
theorem nextTimer_le_heartbeat {c : Connection} (hphase : c.phase = .idle) {timers : Timers}
    (htimers : c.session.state.timers = some timers) :
    ∃ timer, c.nextTimer? = some timer ∧ timer ≤ timers.heartbeatAt := by
  unfold nextTimer?
  rw [htimers, hphase]
  exact ⟨_, rfl, Nat.min_le_left _ _⟩

/-- A write goes on as long as the pipe is empty. -/
theorem write_mem_due {c : Connection} {what : Writing} {unsent : List UInt8}
    (hphase : c.phase = .writing what unsent) {timers : Timers}
    (htimers : c.session.state.timers = some timers) (hempty : c.outbound.bytes = [])
    (hroomy : 0 < c.outbound.capacity) (now : Instant) : .write ∈ c.due now := by
  refine mem_due_iff.mpr ⟨timers, htimers, ?_⟩
  unfold Awaits
  rw [hphase]
  show c.outbound.isOpen = false ∨ 0 < c.outbound.room
  unfold Pipe.room
  rw [hempty]
  cases c.outbound.isOpen with
  | false => exact .inl rfl
  | true => exact .inr hroomy

/-- Dispatching comes to no heartbeat. -/
theorem Passes.phase_ne_heartbeat {σ : Type} {c : Connection} {hub : Hub σ}
    {frames : List Envelope} {after : Connection × Hub σ} (h : c.Passes hub frames after)
    {unsent : List UInt8} : after.1.phase ≠ .writing .heartbeat unsent := by
  rcases h.phase with hphase | ⟨rest, bytes, hphase, -⟩
  · rw [hphase]
    exact nofun
  · rw [hphase]
    exact nofun

end Connection

namespace Watch

variable {σ : Type} {w after : Watch σ}

/-! ## What has been written -/

/-- The first write came at once, and each heartbeat a period after the write before it. -/
structure Rhythm (opened : Instant) (reads : List Instant) (writes : List Written) : Prop where
  first : ∀ written ∈ writes.getLast?,
    written.time = opened ∧ (written.isHeartbeat = true ∨ opened ∈ reads)
  spaced : writes.IsChain fun later earlier =>
    later.isHeartbeat = true → later.time = earlier.time + heartbeatPeriod

/-- What is read has no part in the rhythm of the writes. -/
theorem Rhythm.read {opened : Instant} {reads : List Instant} {writes : List Written}
    (h : Rhythm opened reads writes) (now : Instant) : Rhythm opened (now :: reads) writes where
  first written hmem :=
    ⟨(h.first written hmem).1, (h.first written hmem).2.imp id (List.mem_cons_of_mem now)⟩
  spaced := h.spaced

/-- Another write, which is the first one or keeps to the timer. -/
theorem Rhythm.write {opened : Instant} {reads : List Instant} {writes : List Written}
    (h : Rhythm opened reads writes) {written : Written}
    (hfirst : writes = [] →
      written.time = opened ∧ (written.isHeartbeat = true ∨ opened ∈ reads))
    (hnext : ∀ last ∈ writes.head?,
      written.isHeartbeat = true → written.time = last.time + heartbeatPeriod) :
    Rhythm opened reads (written :: writes) where
  first other hmem := by
    cases writes with
    | nil =>
      cases hmem
      exact hfirst rfl
    | cons last earlier =>
      rw [List.getLast?_cons_cons] at hmem
      exact h.first other hmem
  spaced := List.isChain_cons.mpr ⟨hnext, h.spaced⟩

/-! ## What is under way -/

/-- The next heartbeat is not overdue, a heartbeat is under way only when it is due, and a reply
only after a chunk was read. -/
structure InPace (w : Watch σ) : Prop where
  roomy : 0 < w.connection.outbound.capacity
  inTime : w.connection.hasEnded = false → w.now ≤ w.heartbeatAt
  beating : ∀ {unsent}, w.connection.phase = .writing .heartbeat unsent → w.now = w.heartbeatAt
  replying : ∀ {rest unsent}, w.connection.phase = .writing (.reply rest) unsent → w.reads ≠ []
  rhythm : Rhythm w.opened w.reads w.writes

theorem InPace.aside (h : w.InPace) (haside : w.Aside after) : after.InPace := by
  have hheartbeat : after.heartbeatAt = w.heartbeatAt :=
    congrArg Timers.heartbeatAt haside.timers_eq
  refine ⟨?_, fun hopen => ?_, fun hphase => ?_, fun hphase => ?_, ?_⟩
  · rw [haside.capacity_eq]
    exact h.roomy
  · rw [haside.hasEnded_eq] at hopen
    rw [haside.now_eq, hheartbeat]
    exact h.inTime hopen
  · rw [haside.phase_eq] at hphase
    rw [haside.now_eq, hheartbeat]
    exact h.beating hphase
  · rw [haside.phase_eq] at hphase
    rw [haside.reads_eq]
    exact h.replying hphase
  · rw [haside.opened_eq, haside.reads_eq, haside.writes_eq]
    exact h.rhythm

/-- Time passes only while nothing is under way. -/
theorem InPace.wait (h : w.InPace) (htimed : w.Timed) {time : Instant}
    (hquiet : w.connection.due w.now = [])
    (htimer : ∀ timer, w.connection.nextTimer? = some timer → time ≤ timer)
    (hprompt : w.connection.hasEnded = false → w.connection.outbound.bytes = []) :
    ({ w with now := time } : Watch σ).InPace := by
  have hidle : ∀ {what unsent}, w.connection.phase ≠ .writing what unsent := by
    intro what unsent hphase
    have hopen : w.connection.hasEnded = false := by
      rw [Connection.hasEnded, hphase]
      rfl
    have hdue := Connection.write_mem_due hphase (htimed.timers_eq hopen) (hprompt hopen) h.roomy
      w.now
    rw [hquiet] at hdue
    cases hdue
  refine ⟨h.roomy, fun hopen => ?_, fun hphase => absurd hphase hidle,
    fun hphase => absurd hphase hidle, h.rhythm⟩
  cases hphase : w.connection.phase with
  | idle =>
    obtain ⟨timer, hnext, hle⟩ :=
      Connection.nextTimer_le_heartbeat hphase (htimed.timers_eq hopen)
    exact Nat.le_trans (htimer timer hnext) hle
  | writing what unsent => exact absurd hphase hidle
  | ended =>
    have hopen : w.connection.hasEnded = false := hopen
    rw [Connection.hasEnded, hphase] at hopen
    cases hopen

/-- The first write comes at the instant of the opening. -/
theorem InPace.now_eq_opened (h : w.InPace) (htimed : w.Timed)
    (hopen : w.connection.hasEnded = false) (hnone : w.writes = []) : w.now = w.opened := by
  have hle := h.inTime hopen
  unfold heartbeatAt at hle
  rw [hnone] at hle
  exact Nat.le_antisymm hle htimed.opened_le

/-- A chunk that was read at the instant of the opening. -/
theorem opened_mem_reads (htimed : w.Timed) (hnow : w.now = w.opened) (hsome : w.reads ≠ []) :
    w.opened ∈ w.reads := by
  obtain ⟨time, earlier, hreads⟩ := List.exists_cons_of_ne_nil hsome
  have hmem : time ∈ w.reads := hreads ▸ List.mem_cons_self
  obtain ⟨hopened, hle⟩ := htimed.reads_mem time hmem
  have htime : time = w.opened := Nat.le_antisymm (hnow ▸ hle) hopened
  rwa [htime] at hmem

/-- A heartbeat is completed at the instant at which it was due. -/
theorem InPace.rhythm_beaten (h : w.InPace) (htimed : w.Timed)
    (hopen : w.connection.hasEnded = false) {unsent : List UInt8}
    (hphase : w.connection.phase = .writing .heartbeat unsent) :
    Rhythm w.opened w.reads (⟨w.now, true⟩ :: w.writes) := by
  refine h.rhythm.write (fun hnone => ?_) fun last hlast _ => ?_
  · exact ⟨h.now_eq_opened htimed hopen hnone, .inl rfl⟩
  · have hnow := h.beating hphase
    obtain ⟨earlier, hwrites⟩ := List.head?_eq_some_iff.mp hlast
    unfold heartbeatAt at hnow
    rw [hwrites] at hnow
    exact hnow

/-- A reply may be completed at any instant; if it is the first write, its chunk was there when the
connection was opened. -/
theorem InPace.rhythm_replied (h : w.InPace) (htimed : w.Timed)
    (hopen : w.connection.hasEnded = false) {rest : Chunk RealmOpcode} {unsent : List UInt8}
    (hphase : w.connection.phase = .writing (.reply rest) unsent) :
    Rhythm w.opened w.reads (⟨w.now, false⟩ :: w.writes) := by
  refine h.rhythm.write (fun hnone => ?_) fun _ _ => nofun
  have hnow := h.now_eq_opened htimed hopen hnone
  exact ⟨hnow, .inr (opened_mem_reads htimed hnow (h.replying hphase))⟩

/-- Heartbeats fill the silence, and nothing else. -/
structure Paced (w : Watch σ) : Prop where
  /-- The first write is completed at the instant of the opening; it is a heartbeat unless a chunk
  was read at that instant. -/
  first : ∀ written ∈ w.writes.getLast?,
    written.time = w.opened ∧ (written.isHeartbeat = true ∨ w.opened ∈ w.reads)
  /-- No time passes before the first write. -/
  unwritten : w.connection.hasEnded = false → w.writes = [] → w.now = w.opened
  /-- The last write is not longer ago than a period. -/
  recent : w.connection.hasEnded = false → ∀ last ∈ w.writes.head?,
    last.time ≤ w.now ∧ w.now ≤ last.time + heartbeatPeriod
  /-- Each heartbeat follows the write before it after exactly a period. -/
  spaced : w.writes.IsChain fun later earlier =>
    later.isHeartbeat = true → later.time = earlier.time + heartbeatPeriod

/-! ## One step -/

variable [Transport σ]

/-- As long as the connection is open, no time passes while bytes wait in the pipe to the peer. -/
def isPrompt (w : Watch σ) : List (WatchStep σ) → Bool
  | [] => true
  | step :: rest =>
    (w.connection.hasEnded || (w.step step).now == w.now || w.connection.outbound.bytes.isEmpty) &&
      (w.step step).isPrompt rest

theorem InPace.tear (h : w.InPace) (notice : Notice) : (w.tear notice).InPace where
  roomy := h.roomy
  inTime := nofun
  beating := nofun
  replying := nofun
  rhythm := h.rhythm

/-- An event keeps the pace: the heartbeat comes exactly when it is due, and a reply starts its
period anew. -/
theorem InPace.react (h : w.InPace) (htimed : w.Timed) {event : Event}
    (hdue : event ∈ w.connection.due w.now)
    (hstays : w.connection.Stays event w.now w.hub (w.connection.handle event w.now w.hub)) :
    (w.react event).InPace := by
  have hopen := Connection.hasEnded_of_mem_due hdue
  have houtcome := Connection.outcome_handle hdue w.hub
  have htimers := htimed.timers_eq hopen
  have hroomy : 0 < (w.connection.handle event w.now w.hub).1.outbound.capacity := by
    rw [hstays.capacity_eq]
    exact h.roomy
  have hended := hstays.hasEnded_eq
  unfold Watch.react
  generalize w.connection.handle event w.now w.hub = result at houtcome hroomy hended ⊢
  cases houtcome with
  | ends hends => cases hended
  | @beat timers hphase hsome hbeat =>
    cases hsome.symm.trans htimers
    have hnow : w.now = w.heartbeatAt := Nat.le_antisymm (h.inTime hopen) hbeat
    exact ⟨hroomy, fun _ => h.inTime hopen, fun _ => hnow, nofun, h.rhythm⟩
  | read hphase hbytes hpasses =>
    rw [Connection.takesChunk_read hphase hbytes]
    refine ⟨hroomy, fun _ => h.inTime hopen, fun hbeating => ?_, fun _ => List.cons_ne_nil _ _,
      h.rhythm.read w.now⟩
    exact absurd hbeating hpasses.phase_ne_heartbeat
  | pushed hphase hopened hroom hmore =>
    rw [Connection.completes?_eq_none hphase hmore]
    refine ⟨hroomy, fun _ => h.inTime hopen, fun hbeating => ?_, fun hreplying => ?_, h.rhythm⟩
    · cases hbeating
      exact h.beating hphase
    · cases hreplying
      exact h.replying hphase
  | beaten hphase hopened hroom =>
    rw [Connection.completes?_eq_some hphase hopened hroom]
    exact ⟨hroomy, fun _ => Nat.le_add_right _ _, nofun, nofun,
      h.rhythm_beaten htimed hopen hphase⟩
  | replied hphase hopened hroom hpasses =>
    rw [Connection.completes?_eq_some hphase hopened hroom]
    refine ⟨hroomy, fun _ => Nat.le_add_right _ _, fun hbeating => ?_, fun _ => h.replying hphase,
      h.rhythm_replied htimed hopen hphase⟩
    exact absurd hbeating hpasses.phase_ne_heartbeat

/-- A step keeps the pace, provided that the peer takes what is written before the clock goes on.
-/
theorem InPace.step (h : w.InPace) (htimed : w.Timed) {step : WatchStep σ}
    (hprompt : w.connection.hasEnded = true ∨ (w.step step).now = w.now ∨
      w.connection.outbound.bytes = []) : (w.step step).InPace := by
  have hmoves := w.moves step
  generalize w.step step = after at hmoves hprompt
  cases hmoves with
  | ends hdue hends => exact h.tear _
  | reacts hdue hstays => exact h.react htimed hdue hstays
  | @waits time hle hquiet htimer =>
    by_cases hnow : time = w.now
    · rw [hnow]
      exact h
    · refine h.wait htimed hquiet htimer fun hopen => ?_
      rcases hprompt with hended | hsame | hempty
      · cases hended.symm.trans hopen
      · exact absurd hsame hnow
      · exact hempty
  | breaks hopen => exact h.tear _
  | aside haside hmild => exact h.aside haside

/-- A peer that takes every write at once hears the connection in its pace. -/
theorem InPace.run (h : w.InPace) (htimed : w.Timed) {steps : List (WatchStep σ)}
    (hprompt : w.isPrompt steps = true) : (w.run steps).InPace := by
  induction steps generalizing w with
  | nil => exact h
  | cons step rest ih =>
    unfold isPrompt at hprompt
    rw [Bool.and_eq_true, Bool.or_eq_true, Bool.or_eq_true, beq_iff_eq, List.isEmpty_iff,
      or_assoc] at hprompt
    exact ih (h.step htimed hprompt.1) (htimed.step step) hprompt.2

/-! ## Runs -/

/-- A peer that takes every write at once is written to at the instant of the opening, and then at
least once in every period; whatever it writes, a heartbeat comes exactly a period after the last
write. -/
theorem paced_run (peer : Endpoint) {capacity : Nat} (hcapacity : 0 < capacity) (opened : Instant)
    (hub : Hub σ) {steps : List (WatchStep σ)}
    (hprompt : (start peer capacity opened hub).isPrompt steps = true) :
    ((start peer capacity opened hub).run steps).Paced := by
  have hstart : (start peer capacity opened hub).Timed := timed_start peer capacity opened hub
  have htimed := hstart.run steps
  have hbegin : (start peer capacity opened hub).InPace :=
    ⟨hcapacity, fun _ => Nat.le_refl opened, nofun, nofun, nofun, List.isChain_nil⟩
  have hinPace := hbegin.run hstart hprompt
  generalize (start peer capacity opened hub).run steps = w at htimed hinPace
  refine ⟨hinPace.rhythm.first, fun hopen hnone => hinPace.now_eq_opened htimed hopen hnone,
    fun hopen last hlast => ?_, hinPace.rhythm.spaced⟩
  have hle := hinPace.inTime hopen
  obtain ⟨earlier, hwrites⟩ := List.head?_eq_some_iff.mp hlast
  unfold heartbeatAt at hle
  rw [hwrites] at hle
  exact ⟨htimed.writes_mem last (hwrites ▸ List.mem_cons_self), hle⟩

/-- A peer whose first chunk is answered before the first heartbeat, whose second chunk is not
answered and whose third one is. -/
def chatter : List (WatchStep Mailboxes) :=
  [.write [1, 1, 0, 9], .event .read, .event .write, .drain 4, .wait (milliseconds 6000),
    .write [10, 0, 0], .event .read, .wait (milliseconds 10000), .event .heartbeat, .event .write,
    .drain 3, .wait (milliseconds 14000), .write [1, 1, 0, 9], .event .read, .event .write,
    .drain 4, .wait (milliseconds 24000), .event .heartbeat, .event .write]

/-- The unanswered chunk moves no heartbeat, and the third one puts the next heartbeat off. -/
theorem paced_run_chatter :
    let opened := start ⟨.v4 10 0 0 5, 41000, 0⟩ 4 0 (Hub.start Mailboxes.empty)
    0 < 4 ∧ opened.isPrompt chatter = true ∧ (opened.run chatter).Paced ∧
      (opened.run chatter).reads = [milliseconds 14000, milliseconds 6000, 0] ∧
      (opened.run chatter).writes = [⟨milliseconds 24000, true⟩, ⟨milliseconds 14000, false⟩,
        ⟨milliseconds 10000, true⟩, ⟨0, false⟩] := by
  intro opened
  have hprompt : opened.isPrompt chatter = true := by decide +kernel
  refine ⟨by decide, hprompt, paced_run _ (by decide) _ _ hprompt, ?_⟩
  decide +kernel

end Watch

end RealmDirectory
