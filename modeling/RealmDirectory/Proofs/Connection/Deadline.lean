import RealmDirectory.Hub.Mailbox
import RealmDirectory.Proofs.Connection.Watch

/-!
# The deadline is exact

A connection is given up exactly `deadlinePeriod` after it last read a chunk, or after it was opened
if it read none, whether or not a write is waiting for room at that instant. Only the peer's bytes
put the deadline off: the writes do not, however the peer takes them.

Until then nothing but the end of the stream, a fault or a request to end can close it, so a peer
that writes something in less than a period each time keeps it open. However it is closed, its
timers are stopped, its link is closed and its realm goes offline if the link still owns it.

The clock waits for what is due, so it must be shown that this comes to an end: only so many events
follow one another without the peer, whichever of them is taken first.

## Main results

* `Watch.InTime.step` — no step leaves the connection open for too long.
* `Watch.Unhurried.step` — no step closes it too early, unless it is disturbing.
* `Watch.closes_of_step` — why a connection is closed, and what is left of it.
* `Watch.punctual_run` — all of this after any run.
-/

namespace RealmDirectory

namespace Connection

/-- The next timer of an open connection goes off by the deadline, also while it writes. -/
theorem nextTimer_le {c : Connection} (hopen : c.hasEnded = false) {timers : Timers}
    (htimers : c.session.state.timers = some timers) :
    ∃ timer, c.nextTimer? = some timer ∧ timer ≤ timers.deadlineAt := by
  unfold nextTimer?
  rw [htimers]
  cases hphase : c.phase with
  | idle => exact ⟨_, rfl, Nat.min_le_right _ _⟩
  | writing what unsent => exact ⟨_, rfl, Nat.le_refl _⟩
  | ended =>
    rw [hasEnded, hphase] at hopen
    cases hopen

/-- The deadline is due as soon as it has come, also while the connection writes. -/
theorem deadline_mem_due {c : Connection} (hopen : c.hasEnded = false) {timers : Timers}
    (htimers : c.session.state.timers = some timers) {now : Instant}
    (hle : timers.deadlineAt ≤ now) : .deadline ∈ c.due now := by
  refine mem_due_iff.mpr ⟨timers, htimers, ?_⟩
  unfold Awaits
  cases hphase : c.phase with
  | idle => exact hle
  | writing what unsent => exact hle
  | ended =>
    rw [hasEnded, hphase] at hopen
    cases hopen

private theorem Stays.isUndisturbed_eq {σ : Type} {c : Connection} {event : Event} {now : Instant}
    {hub : Hub σ} {after : Connection × Hub σ} (h : c.Stays event now hub after) :
    after.1.isUndisturbed = c.isUndisturbed := by
  unfold isUndisturbed
  rw [h.isCancelled_eq, h.inbound_eq, h.outbound_eq]

end Connection

namespace Watch

variable {σ : Type} {w : Watch σ}

/-! ## The deadline and the clock -/

/-- The connection is not open for longer than a period after the last chunk. -/
def InTime (w : Watch σ) : Prop :=
  w.connection.hasEnded = false → w.now ≤ w.lastRead + deadlinePeriod

/-- When nothing is due the deadline is yet to come. -/
theorem lt_of_due_nil (h : w.Timed) (hopen : w.connection.hasEnded = false)
    (hquiet : w.connection.due w.now = []) : w.now < w.lastRead + deadlinePeriod := by
  by_contra hpast
  have hdue := Connection.deadline_mem_due hopen (h.timers_eq hopen) (Nat.not_lt.mp hpast)
  rw [hquiet] at hdue
  cases hdue

/-- The connection is open and nothing disturbs it, or a period has passed since the last chunk. -/
structure Unhurried (w : Watch σ) : Prop where
  undisturbed : w.connection.hasEnded = false → w.connection.isUndisturbed = true
  past : w.connection.hasEnded = true → w.lastRead + deadlinePeriod ≤ w.now

/-- Nothing but the deadline ends a connection that nothing disturbs. -/
theorem eq_deadline_of_ends {c : Connection} (h : c.isUndisturbed = true) {now : Instant}
    {event : Event} (hends : c.Ends now event) : event = .deadline := by
  unfold Connection.isUndisturbed at h
  rw [Bool.and_eq_true, Bool.and_eq_true, Bool.not_eq_true'] at h
  obtain ⟨⟨hcancelled, hinbound⟩, houtbound⟩ := h
  cases event with
  | deadline => rfl
  | heartbeat => exact hends.elim
  | shutdown => cases hcancelled.symm.trans hends
  | read => cases hinbound.symm.trans hends.2
  | write => cases houtbound.symm.trans hends

private theorem le_now_of_deadline (h : w.Timed) (hopen : w.connection.hasEnded = false)
    (hends : w.connection.Ends w.now .deadline) : w.lastRead + deadlinePeriod ≤ w.now := by
  obtain ⟨timers, htimers, hle⟩ := hends
  cases htimers.symm.trans (h.timers_eq hopen)
  exact hle

/-- What makes a step close the connection. -/
def Closes (w : Watch σ) : WatchStep σ → Prop
  | .event .deadline => w.now = w.lastRead + deadlinePeriod
  | .event event => w.connection.Ends w.now event
  | .fault _ => True
  | _ => False

theorem Timed.beats (h : w.Timed) : w.connection.Beats := by
  intro period hmem
  cases hopen : w.connection.hasEnded with
  | false =>
    rw [h.timers_eq hopen] at hmem
    cases hmem
    show 0 < heartbeatPeriod
    decide
  | true =>
    rw [h.stopped hopen] at hmem
    cases hmem

variable [Transport σ]

/-! ## Not too late -/

/-- The clock stops at the deadline of an open connection, so that no step is late. -/
theorem InTime.step (h : w.InTime) (htimed : w.Timed) (step : WatchStep σ) :
    (w.step step).InTime := by
  have hmoves := w.moves step
  generalize w.step step = after at hmoves
  cases hmoves with
  | ends hdue hends => exact nofun
  | @reacts event hdue hstays =>
    intro _
    have hbefore := h (Connection.hasEnded_of_mem_due hdue)
    show w.now ≤ (if w.connection.takesChunk event then w.now :: w.reads
      else w.reads).headD w.opened + deadlinePeriod
    split
    · exact Nat.le_add_right _ _
    · exact hbefore
  | waits hle hquiet htimer =>
    intro hopen
    obtain ⟨timer, hnext, hdeadline⟩ :=
      Connection.nextTimer_le hopen (htimed.timers_eq hopen)
    exact Nat.le_trans (htimer timer hnext) hdeadline
  | breaks hopen => exact nofun
  | aside haside hmild =>
    intro hopen
    rw [haside.hasEnded_eq] at hopen
    unfold lastRead
    rw [haside.now_eq, haside.reads_eq, haside.opened_eq]
    exact h hopen

/-! ## Not too early -/

/-- A step that disturbs nothing ends the connection only when a period has passed. -/
theorem Unhurried.step (h : w.Unhurried) (htimed : w.Timed) {step : WatchStep σ}
    (hstep : step.isDisturbing = false) : (w.step step).Unhurried := by
  have hmoves := w.moves step
  generalize w.step step = after at hmoves
  cases hmoves with
  | ends hdue hends =>
    have hopen := Connection.hasEnded_of_mem_due hdue
    obtain rfl := eq_deadline_of_ends (h.undisturbed hopen) hends
    have hpast := le_now_of_deadline htimed hopen hends
    exact ⟨nofun, fun _ => hpast⟩
  | reacts hdue hstays =>
    have hbefore := h.undisturbed (Connection.hasEnded_of_mem_due hdue)
    refine ⟨fun _ => ?_, fun hended => ?_⟩
    · exact hstays.isUndisturbed_eq.trans hbefore
    · cases hended.symm.trans hstays.hasEnded_eq
  | waits hle hquiet htimer =>
    exact ⟨h.undisturbed, fun hended => Nat.le_trans (h.past hended) hle⟩
  | breaks hopen => cases hstep
  | aside haside hmild =>
    refine ⟨fun hopen => ?_, fun hended => ?_⟩
    · rw [haside.hasEnded_eq] at hopen
      exact (hmild hstep).trans (h.undisturbed hopen)
    · rw [haside.hasEnded_eq] at hended
      unfold lastRead
      rw [haside.now_eq, haside.reads_eq, haside.opened_eq]
      exact h.past hended

/-! ## Why a connection is closed -/

/-- A step that ends the connection had a reason to, and leaves the connection torn down. -/
theorem closes_of_step (h : w.Timed) (hinTime : w.InTime) {step : WatchStep σ}
    (hopen : w.connection.hasEnded = false) (hended : (w.step step).connection.hasEnded = true) :
    w.Closes step ∧ (w.step step).connection.TornDown (w.step step).hub := by
  have hmoves := w.moves step
  generalize w.step step = after at hmoves hended ⊢
  cases hmoves with
  | @ends event notice hdue hends =>
    refine ⟨?_, w.connection.tornDown_finish (h.live hopen)⟩
    cases event with
    | deadline => exact Nat.le_antisymm (hinTime hopen) (le_now_of_deadline h hopen hends)
    | _ => exact hends
  | reacts hdue hstays => cases hended.symm.trans hstays.hasEnded_eq
  | waits hle hquiet htimer => cases hended.symm.trans hopen
  | breaks _ => exact ⟨trivial, w.connection.tornDown_finish (h.live hopen)⟩
  | aside haside hmild => cases hended.symm.trans (haside.hasEnded_eq.trans hopen)

/-! ## What happens at one instant -/

/-- The events happen one after another, each being due. -/
def Follow (w : Watch σ) : List Event → Prop
  | [] => True
  | event :: rest => event ∈ w.connection.due w.now ∧ (w.react event).Follow rest

private theorem length_le_of_follow {events : List Event} (h : w.Follow events)
    (hbeats : w.connection.Beats) : events.length ≤ w.connection.load w.now := by
  induction events generalizing w with
  | nil => exact Nat.zero_le _
  | cons event rest ih =>
    obtain ⟨hdue, hrest⟩ := h
    have hless := Connection.load_lt_of_mem_due hbeats hdue w.hub
    have hle := ih hrest ((Connection.outcome_handle hdue w.hub).beats hbeats)
    exact Nat.lt_of_le_of_lt hle hless

/-! ## Runs -/

/-- The connection of a watch is closed in time and not before. -/
structure Punctual (steps : List (WatchStep σ)) (w : Watch σ) : Prop where
  /-- It is never open later than a period after the last chunk. -/
  closed : w.lastRead + deadlinePeriod < w.now → w.connection.hasEnded = true
  /-- It is open until then, unless a step was disturbing. -/
  stays : (∀ step ∈ steps, step.isDisturbing = false) →
    w.now < w.lastRead + deadlinePeriod → w.connection.hasEnded = false
  /-- The deadline closes it at that very instant, and whatever closes it tears it down. -/
  closing : ∀ step, w.connection.hasEnded = false →
    (w.step step).connection.hasEnded = true →
    w.Closes step ∧ (w.step step).connection.TornDown (w.step step).hub
  /-- The timers do not start again. -/
  stopped : w.connection.hasEnded = true → w.connection.session.state.timers = none
  /-- Only so many events happen before time goes on, whichever is taken first. -/
  brief : ∀ events, w.Follow events → events.length ≤ w.connection.work
  /-- Once they have all happened, the connection is closed or the deadline is yet to come. -/
  settled : w.connection.hasEnded = false → w.connection.due w.now = [] →
    w.now < w.lastRead + deadlinePeriod

/-- No run is late, by induction over its steps. -/
theorem InTime.run (h : w.InTime) (htimed : w.Timed) (steps : List (WatchStep σ)) :
    (w.run steps).InTime := by
  induction steps generalizing w with
  | nil => exact h
  | cons step rest ih => exact ih (h.step htimed step) (htimed.step step)

/-- No run without a disturbance ends the connection early. -/
theorem Unhurried.run (h : w.Unhurried) (htimed : w.Timed) {steps : List (WatchStep σ)}
    (hsteps : ∀ step ∈ steps, step.isDisturbing = false) : (w.run steps).Unhurried := by
  induction steps generalizing w with
  | nil => exact h
  | cons step rest ih =>
    have hstep := h.step htimed (hsteps step List.mem_cons_self)
    exact ih hstep (htimed.step step) fun other hmem => hsteps other (List.mem_cons_of_mem _ hmem)

/-- However the peer writes and takes what is written to it, and whichever due event happens first:
the connection is given up exactly a period after the last chunk. -/
theorem punctual_run (peer : Endpoint) (capacity : Nat) (opened : Instant) (hub : Hub σ)
    (steps : List (WatchStep σ)) : Punctual steps ((start peer capacity opened hub).run steps) := by
  have hstart : (start peer capacity opened hub).Timed := timed_start peer capacity opened hub
  have htimed := hstart.run steps
  have hinTime : ((start peer capacity opened hub).run steps).InTime :=
    InTime.run (fun _ => Nat.le_add_right opened deadlinePeriod) hstart steps
  have hunhurried : (start peer capacity opened hub).Unhurried := ⟨fun _ => rfl, nofun⟩
  exact
    { closed := fun hlate => by
        by_contra hopen
        exact absurd (hinTime (Bool.eq_false_iff.mpr hopen)) (Nat.not_le.mpr hlate)
      stays := fun hsteps hearly => by
        by_contra hended
        have hpast := (hunhurried.run hstart hsteps).past (Bool.not_eq_false _ ▸ hended)
        exact absurd hpast (Nat.not_le.mpr hearly)
      closing := fun step hopen hended => closes_of_step htimed hinTime hopen hended
      stopped := htimed.stopped
      brief := fun events hfollow =>
        Nat.le_trans (length_le_of_follow hfollow htimed.beats) (Connection.load_le_work _ _)
      settled := fun hopen hquiet => lt_of_due_nil htimed hopen hquiet }

/-- A peer stops reading, and the second heartbeat waits for room until the deadline. -/
example :
    let opened := start ⟨.v4 10 0 0 5, 41000, 0⟩ 4 0 (Hub.start Mailboxes.empty)
    let blocked := opened.run [.event .heartbeat, .event .write, .wait heartbeatPeriod,
      .event .heartbeat, .event .write, .wait deadlinePeriod]
    blocked.connection.due blocked.now = [.deadline] ∧
      blocked.connection.phase = .writing .heartbeat [0, 0] ∧
      (blocked.step (.event .deadline)).connection.hasEnded = true := by
  decide +kernel

end Watch

end RealmDirectory
