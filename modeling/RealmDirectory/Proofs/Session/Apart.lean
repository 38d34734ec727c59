import RealmDirectory.Hub.Mailbox
import RealmDirectory.Proofs.Session.Effect

/-!
# Sessions for different realms

Two sessions that have no realm in common do not notice each other. In whatever order their
envelopes come, each of them gets the replies it would get alone and ends up as it would alone, and
the realms become what they would become if one session was served to its end before the other
began.

The realms of a session are the one it has and those that its registrations ask for. An envelope
reads and changes the record of one of these at most, so on hubs that agree outside the other
session's realms it comes to the same (`Session.Concurs`), and the other session's envelopes keep
the agreement. A run of both is therefore compared with the run of either alone.

## Main definitions

* `Session.realms` — the realms that a session may be about.
* `Session.serve`, `Duo.run` — a session alone, and two of them in any order.

## Main results

* `Session.concurs_dispatch`, `Session.agreesOn_dispatch` — one envelope, seen from either side.
* `Duo.follows` — a session among the envelopes of another one.
* `Duo.ordered_run` — the order of the envelopes of two sessions makes no difference.
-/

namespace RealmDirectory

variable {σ : Type}

/-! ## Hubs that agree on some realms -/

/-- The hubs have the same links and the same records of these realms. -/
structure Hub.AgreesOn (scope : UInt32 → Prop) (a b : Hub σ) : Prop where
  links_eq : a.links = b.links
  find?_eq : ∀ id, scope id → a.realms.find? id = b.realms.find? id

namespace Hub.AgreesOn

variable {scope : UInt32 → Prop} {a b c : Hub σ}

theorem refl (scope : UInt32 → Prop) (hub : Hub σ) : hub.AgreesOn scope hub :=
  ⟨rfl, fun _ _ => rfl⟩

theorem trans (h : a.AgreesOn scope b) (hnext : b.AgreesOn scope c) : a.AgreesOn scope c :=
  ⟨h.links_eq.trans hnext.links_eq,
    fun id hid => (h.find?_eq id hid).trans (hnext.find?_eq id hid)⟩

private theorem isHeld_eq (h : a.AgreesOn scope b) {id : UInt32} (hid : scope id) :
    a.realms.isHeld a.links id = b.realms.isHeld b.links id := by
  unfold RealmTable.isHeld
  rw [h.links_eq, h.find?_eq id hid]

/-- An operation that registers a realm. -/
theorem find?_register (h : a.AgreesOn scope b) (record : RealmRecord) {id : UInt32}
    (hid : scope id) :
    ((Operation.register record).onTable a.links a.realms).find? id =
      ((Operation.register record).onTable b.links b.realms).find? id := by
  have hsame := h.find?_eq id hid
  unfold Operation.onTable
  dsimp only
  rw [h.links_eq]
  by_cases hrecord : record.id = id
  · rw [hrecord, hsame]
    split
    · exact hsame
    · rw [RealmTable.find?_put, RealmTable.find?_put, hsame]
  · have hput : ∀ (table : RealmTable) (previous : Option RealmRecord),
        (table.put (record.entering previous)).find? id = table.find? id := by
      intro table previous
      rw [RealmTable.find?_put, RealmRecord.id_entering, if_neg hrecord]
    split <;> split <;> simp only [hput, hsame]

end Hub.AgreesOn

/-! ## One envelope -/

namespace Session

/-- The realm that an envelope asks to register, whoever sends it. -/
def requested? (envelope : Envelope) : Option UInt32 :=
  if envelope.opcode = .registeringRequest then
    (Registration.decode envelope.payload).toOption.map (·.1.id)
  else none

/-- The realms that a session may be about: the one it has, and those that its envelopes ask to
register. A session begins without a realm, so over its whole life these are the latter. -/
def realms (session : Session) (envelopes : List Envelope) : List UInt32 :=
  session.state.realm.toList ++ envelopes.filterMap requested?

variable {session : Session} {envelope : Envelope}

private theorem requested?_of_offered? {registration : Registration}
    (h : session.offered? envelope = some registration) :
    requested? envelope = some registration.id := by
  obtain ⟨hopcode, -, trailing, hdecode⟩ := offered?_eq_some_iff.mp h
  rw [requested?, if_pos hopcode, hdecode]
  rfl

private theorem subject?_of_offered? {registration : Registration}
    (h : session.offered? envelope = some registration) :
    session.subject? envelope = some registration.id := by
  unfold subject?
  rw [h]

private theorem mem_realms_of_subject? {id : UInt32} (h : session.subject? envelope = some id)
    (rest : List Envelope) : id ∈ session.realms (envelope :: rest) := by
  unfold subject? at h
  unfold realms
  cases hoffered : session.offered? envelope with
  | some registration =>
    rw [hoffered] at h
    cases h
    rw [List.filterMap_cons, requested?_of_offered? hoffered]
    exact List.mem_append_right _ List.mem_cons_self
  | none =>
    rw [hoffered] at h
    have hrealm : session.state.realm = some id := by
      unfold passedTo? at h
      dsimp only at h
      split at h
      · exact h
      · exact h
      · cases h
    rw [hrealm]
    exact List.mem_append_left _ (List.mem_singleton.mpr rfl)

/-- The same answer, the same session, and hubs that agree on some realms. -/
structure Concurs (scope : UInt32 → Prop) {ρ : Type} (first second : ρ × Session × Hub σ) :
    Prop where
  answer_eq : first.1 = second.1
  session_eq : first.2.1 = second.2.1
  hubs : first.2.2.AgreesOn scope second.2.2

variable [Transport σ] {scope : UInt32 → Prop} {a b : Hub σ}

/-- An envelope brings no realm to its session that was not among its realms. -/
theorem realms_dispatch_subset (session : Session) (envelope : Envelope) (now : Instant)
    (hub : Hub σ) (rest : List Envelope) :
    (session.dispatch envelope now hub).2.1.realms rest ⊆ session.realms (envelope :: rest) := by
  intro id hid
  rw [session_dispatch] at hid
  have hrest : rest.filterMap requested? ⊆ (envelope :: rest).filterMap requested? := by
    rw [List.filterMap_cons]
    split
    · exact List.Subset.refl _
    · exact List.subset_cons_self _ _
  cases htaken : session.taken? hub.links hub.realms envelope with
  | none =>
    rw [htaken] at hid
    rcases List.mem_append.mp hid with hrealm | hmem
    · exact List.mem_append_left _ hrealm
    · exact List.mem_append_right _ (hrest hmem)
  | some taken =>
    rw [htaken] at hid
    rcases List.mem_append.mp hid with hrealm | hmem
    · obtain rfl : id = taken := List.mem_singleton.mp hrealm
      obtain ⟨hid, -⟩ := Option.filter_eq_some_iff.mp htaken
      obtain ⟨registration, hoffered, rfl⟩ := Option.map_eq_some_iff.mp hid
      exact mem_realms_of_subject? (subject?_of_offered? hoffered) rest
    · exact List.mem_append_right _ (hrest hmem)

/-- An envelope comes to the same on hubs that agree on the realm it is about. -/
theorem concurs_dispatch (h : a.AgreesOn scope b)
    (hscope : ∀ id, session.subject? envelope = some id → scope id) (now : Instant) :
    Concurs scope (session.dispatch envelope now a) (session.dispatch envelope now b) := by
  have htaken : session.taken? a.links a.realms envelope =
      session.taken? b.links b.realms envelope := by
    unfold taken?
    cases hoffered : session.offered? envelope with
    | none => rfl
    | some registration =>
      have hid := hscope _ (subject?_of_offered? hoffered)
      rw [Option.map_some, Option.filter_some, Option.filter_some, h.isHeld_eq hid]
  obtain ⟨hrealms, hlinks⟩ := session.registry_dispatch envelope now a
  obtain ⟨hrealms', hlinks'⟩ := session.registry_dispatch envelope now b
  refine ⟨?_, ?_, ?_, fun id hid => ?_⟩
  · rw [reply_dispatch, reply_dispatch, htaken]
  · rw [session_dispatch, session_dispatch, htaken]
  · rw [hlinks, hlinks', h.links_eq]
  · have hsame := h.find?_eq id hid
    rw [hrealms, hrealms']
    unfold onTable
    cases session.offered? envelope with
    | some registration => exact h.find?_register _ hid
    | none =>
      cases session.passedTo? envelope with
      | none => exact hsame
      | some realm =>
        dsimp only
        rw [RealmTable.find?_adjust _ _ _ (id_written envelope now),
          RealmTable.find?_adjust _ _ _ (id_written envelope now)]
        split
        · next heq => rw [← heq, hsame]
        · exact hsame

/-- An envelope that is about none of some realms leaves the hub as it was there. -/
theorem agreesOn_dispatch (hscope : ∀ id, session.subject? envelope = some id → ¬scope id)
    (now : Instant) (hub : Hub σ) :
    (session.dispatch envelope now hub).2.2.AgreesOn scope hub where
  links_eq := (session.registry_dispatch envelope now hub).2
  find?_eq id hid := find?_dispatch_of_ne (fun hsubject => hscope id hsubject hid) now hub

/-! ## A session alone -/

/-- An envelope and the instant of its dispatch. -/
structure Turn where
  envelope : Envelope
  now : Instant

/-- Dispatches envelopes one after another; the replies, in order, the session and the hub. -/
def serve (session : Session) (hub : Hub σ) :
    List Turn → List (Option Envelope) × Session × Hub σ
  | [] => ([], session, hub)
  | turn :: rest =>
    let (reply, session, hub) := session.dispatch turn.envelope turn.now hub
    let (replies, after) := session.serve hub rest
    (reply :: replies, after)

end Session

/-! ## Two sessions -/

open Session (Turn)

/-- Two sessions on one hub, and the replies that each of them got, in order. -/
structure Duo (σ : Type) where
  toFirst : List (Option Envelope)
  toSecond : List (Option Envelope)
  first : Session
  second : Session
  hub : Hub σ

namespace Duo

/-- The envelopes of both sessions in the order of their dispatch. -/
abbrev Schedule := List (Turn ⊕ Turn)

/-- What the first session gets to deal with. -/
def turnsOfFirst (schedule : Schedule) : List Turn := schedule.filterMap Sum.getLeft?

/-- What the second session gets to deal with. -/
def turnsOfSecond (schedule : Schedule) : List Turn := schedule.filterMap Sum.getRight?

/-- All envelopes of the first session before those of the second one. -/
def inOrder (first second : List Turn) : Schedule := first.map .inl ++ second.map .inr

/-- One after the other, each session has its own turns. -/
theorem turnsOfFirst_inOrder (first second : List Turn) :
    turnsOfFirst (inOrder first second) = first := by
  unfold turnsOfFirst inOrder
  rw [List.filterMap_append, List.filterMap_map, List.filterMap_map]
  simp [Function.comp_def]

private theorem turnsOfSecond_inOrder (first second : List Turn) :
    turnsOfSecond (inOrder first second) = second := by
  unfold turnsOfSecond inOrder
  rw [List.filterMap_append, List.filterMap_map, List.filterMap_map]
  simp [Function.comp_def]

/-- The same with the sessions in each other's place. -/
def swap (duo : Duo σ) : Duo σ :=
  ⟨duo.toSecond, duo.toFirst, duo.second, duo.first, duo.hub⟩

variable [Transport σ]

/-- Dispatches the envelopes of a schedule. -/
def run (first second : Session) (hub : Hub σ) : Schedule → Duo σ
  | [] => ⟨[], [], first, second, hub⟩
  | .inl turn :: rest =>
    let (reply, first, hub) := first.dispatch turn.envelope turn.now hub
    let duo := run first second hub rest
    { duo with toFirst := reply :: duo.toFirst }
  | .inr turn :: rest =>
    let (reply, second, hub) := second.dispatch turn.envelope turn.now hub
    let duo := run first second hub rest
    { duo with toSecond := reply :: duo.toSecond }

/-- Which of the two sessions is called the first does not matter. -/
theorem run_swap (first second : Session) (hub : Hub σ) (schedule : Schedule) :
    run second first hub (schedule.map Sum.swap) = (run first second hub schedule).swap := by
  induction schedule generalizing first second hub with
  | nil => rfl
  | cons turn rest ih =>
    cases turn with
    | inl turn =>
      let next := first.dispatch turn.envelope turn.now hub
      exact congrArg (fun duo : Duo σ => { duo with toSecond := next.1 :: duo.toSecond })
        (ih next.2.1 second next.2.2)
    | inr turn =>
      let next := second.dispatch turn.envelope turn.now hub
      exact congrArg (fun duo : Duo σ => { duo with toFirst := next.1 :: duo.toFirst })
        (ih first next.2.1 next.2.2)

/-- The realms of a session over its part of a schedule. -/
def realms (session : Session) (turns : List Turn) : List UInt32 :=
  session.realms (turns.map (·.envelope))

/-- A session does among the envelopes of another one as it does alone, on a hub that agrees where
the other one's realms are not. -/
theorem follows {first second : Session} {scope : UInt32 → Prop} {schedule : Schedule}
    (hmine : ∀ id ∈ realms first (turnsOfFirst schedule), scope id)
    (hothers : ∀ id ∈ realms second (turnsOfSecond schedule), ¬scope id) {hub alone : Hub σ}
    (h : hub.AgreesOn scope alone) :
    let duo := run first second hub schedule
    Session.Concurs scope (duo.toFirst, duo.first, duo.hub)
      (first.serve alone (turnsOfFirst schedule)) := by
  induction schedule generalizing first second hub alone with
  | nil => exact ⟨rfl, rfl, h⟩
  | cons turn rest ih =>
    cases turn with
    | inl turn =>
      change ∀ id ∈ first.realms (turn.envelope :: (turnsOfFirst rest).map (·.envelope)), scope id
        at hmine
      have hstep := Session.concurs_dispatch h
        (fun id hid => hmine id (Session.mem_realms_of_subject? hid _)) turn.now
      have hsubset := first.realms_dispatch_subset turn.envelope turn.now hub
        ((turnsOfFirst rest).map (·.envelope))
      have hrest := ih (fun id hid => hmine id (hsubset hid)) hothers hstep.hubs
      have halone : (first.dispatch turn.envelope turn.now hub).2.1.serve
          (first.dispatch turn.envelope turn.now alone).2.2 (turnsOfFirst rest) =
          (first.dispatch turn.envelope turn.now alone).2.1.serve
            (first.dispatch turn.envelope turn.now alone).2.2 (turnsOfFirst rest) := by
        rw [hstep.session_eq]
      rw [halone] at hrest
      exact ⟨congrArg₂ List.cons hstep.answer_eq hrest.answer_eq, hrest.session_eq, hrest.hubs⟩
    | inr turn =>
      change ∀ id ∈ second.realms (turn.envelope :: (turnsOfSecond rest).map (·.envelope)),
        ¬scope id at hothers
      have hkept := Session.agreesOn_dispatch
        (fun id hid => hothers id (Session.mem_realms_of_subject? hid _)) turn.now hub
      have hsubset := second.realms_dispatch_subset turn.envelope turn.now hub
        ((turnsOfSecond rest).map (·.envelope))
      exact ih hmine (fun id hid => hothers id (hsubset hid)) (hkept.trans h)

/-- Each of two sessions with no realm in common ends as it would alone, and so do the realms, apart
from those of the other one. -/
structure Apart (first second : Session) (hub : Hub σ) (schedule : Schedule) (duo : Duo σ) :
    Prop where
  followsFirst : Session.Concurs (· ∉ realms second (turnsOfSecond schedule))
    (duo.toFirst, duo.first, duo.hub) (first.serve hub (turnsOfFirst schedule))
  followsSecond : Session.Concurs (· ∉ realms first (turnsOfFirst schedule))
    (duo.toSecond, duo.second, duo.hub) (second.serve hub (turnsOfSecond schedule))

/-- Sessions that name no realm in common do to their realms what each would do alone. -/
theorem apart_run {first second : Session} {schedule : Schedule}
    (h : (realms first (turnsOfFirst schedule)).Disjoint
      (realms second (turnsOfSecond schedule))) (hub : Hub σ) :
    Apart first second hub schedule (run first second hub schedule) := by
  have hfirst : turnsOfFirst (schedule.map Sum.swap) = turnsOfSecond schedule := by
    simp [turnsOfFirst, turnsOfSecond, List.filterMap_map]
  have hsecond : turnsOfSecond (schedule.map Sum.swap) = turnsOfFirst schedule := by
    simp [turnsOfFirst, turnsOfSecond, List.filterMap_map]
  constructor
  · exact follows (fun id hid => h hid) (fun id hid hnot => hnot hid) (.refl _ hub)
  · let swapped := run second first hub (schedule.map Sum.swap)
    have hswapped : Session.Concurs (· ∉ realms first (turnsOfFirst schedule))
        (swapped.toFirst, swapped.first, swapped.hub)
        (second.serve hub (turnsOfFirst (schedule.map Sum.swap))) := by
      refine follows (fun id hid hmem => ?_) (fun id hid hnot => ?_) (.refl _ hub)
      · rw [hfirst] at hid
        exact h hmem hid
      · rw [hsecond] at hid
        exact hnot hid
    have heq : swapped = (run first second hub schedule).swap := run_swap first second hub schedule
    rw [heq, hfirst] at hswapped
    exact hswapped

/-- The same replies, the same sessions, the same links and the same realms, each with its
snapshot, owner, log and delivery mark. -/
structure Same (duo other : Duo σ) : Prop where
  toFirst_eq : duo.toFirst = other.toFirst
  toSecond_eq : duo.toSecond = other.toSecond
  first_eq : duo.first = other.first
  second_eq : duo.second = other.second
  links_eq : duo.hub.links = other.hub.links
  realms_eq : duo.hub.realms = other.hub.realms

/-- The order in which the envelopes of two sessions with no realm in common are dispatched makes no
difference: any order comes to the same as serving one session to its end before the other one. -/
theorem ordered_run {first second : Session} {schedule : Schedule}
    (h : (realms first (turnsOfFirst schedule)).Disjoint
      (realms second (turnsOfSecond schedule))) (hub : Hub σ) :
    Same (run first second hub schedule)
      (run first second hub (inOrder (turnsOfFirst schedule) (turnsOfSecond schedule))) := by
  have hmixed := apart_run h hub
  have hordered : Apart first second hub (inOrder (turnsOfFirst schedule) (turnsOfSecond schedule))
      (run first second hub (inOrder (turnsOfFirst schedule) (turnsOfSecond schedule))) :=
    apart_run (by rw [turnsOfFirst_inOrder, turnsOfSecond_inOrder]; exact h) hub
  obtain ⟨hfirst, hsecond⟩ := hordered
  rw [turnsOfFirst_inOrder, turnsOfSecond_inOrder] at hfirst hsecond
  refine ⟨?_, ?_, ?_, ?_, ?_, RealmTable.ext_find? fun id => ?_⟩
  · exact hmixed.followsFirst.answer_eq.trans hfirst.answer_eq.symm
  · exact hmixed.followsSecond.answer_eq.trans hsecond.answer_eq.symm
  · exact hmixed.followsFirst.session_eq.trans hfirst.session_eq.symm
  · exact hmixed.followsSecond.session_eq.trans hsecond.session_eq.symm
  · exact hmixed.followsFirst.hubs.links_eq.trans hfirst.hubs.links_eq.symm
  · -- A realm that is not the second session's became what the first one made of it.
    by_cases hid : id ∈ realms second (turnsOfSecond schedule)
    · have hnot : id ∉ realms first (turnsOfFirst schedule) := fun hmem => h hmem hid
      exact (hmixed.followsSecond.hubs.find?_eq id hnot).trans
        (hsecond.hubs.find?_eq id hnot).symm
    · exact (hmixed.followsFirst.hubs.find?_eq id hid).trans (hfirst.hubs.find?_eq id hid).symm

/-! ### Two sessions and a realm that neither of them gets -/

/-- A registration of some realm. -/
def request (id : UInt32) : Envelope :=
  let registration : Registration :=
    ⟨id, "Realm", 8085, 200, 50, .player, ⟨0⟩, .normal, .english, []⟩
  ⟨.registeringRequest, registration.encode.toOption.getD []⟩

def line : Envelope := ⟨.logMessage, LogLine.encode ⟨1, "line"⟩⟩

/-- Three sessions, of which the last one has registered realm 9. -/
def crowd : Session × Session × Hub Mailboxes :=
  let (first, hub) := Session.start ⟨.v4 10 0 0 5, 41000, 0⟩ (Hub.start Mailboxes.empty)
  let (second, hub) := Session.start ⟨.v4 10 0 0 6, 41000, 0⟩ hub
  let (third, hub) := Session.start ⟨.v4 10 0 0 7, 41000, 0⟩ hub
  (first, second, (third.dispatch (request 9) 0 hub).2.2)

/-- One session logs too early, registers realm 7 and logs again; the other one sends what is no
registration, asks for realm 9 in vain, registers realm 8 and logs. -/
def mingled : Schedule :=
  [.inl ⟨line, 1⟩, .inr ⟨⟨.registeringRequest, [9]⟩, 2⟩, .inl ⟨request 7, 3⟩, .inr ⟨request 9, 3⟩,
    .inr ⟨request 8, 4⟩, .inl ⟨line, 5⟩, .inr ⟨line, 5⟩]

/-- The two sessions get in turns what they would get one after the other. -/
theorem ordered_run_crowd :
    let mixed := run crowd.1 crowd.2.1 crowd.2.2 mingled
    (realms crowd.1 (turnsOfFirst mingled)).Disjoint (realms crowd.2.1 (turnsOfSecond mingled)) ∧
      Same mixed (run crowd.1 crowd.2.1 crowd.2.2
        (inOrder (turnsOfFirst mingled) (turnsOfSecond mingled))) ∧
      mixed.toFirst = [none, some (Session.answer true), none] ∧
      mixed.toSecond = [some (Session.answer false), some (Session.answer false),
        some (Session.answer true), none] ∧
      (mixed.hub.realms.find? 7).map (·.log.size) = some 1 := by
  have hdisjoint : (realms crowd.1 (turnsOfFirst mingled)).Disjoint
      (realms crowd.2.1 (turnsOfSecond mingled)) := by
    have hfirst : realms crowd.1 (turnsOfFirst mingled) = [7] := by decide +kernel
    have hsecond : realms crowd.2.1 (turnsOfSecond mingled) = [9, 8] := by decide +kernel
    rw [hfirst, hsecond, List.singleton_disjoint]
    decide
  refine ⟨hdisjoint, ordered_run hdisjoint crowd.2.2, ?_⟩
  decide +kernel

end Duo

end RealmDirectory
