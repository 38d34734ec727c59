import RealmDirectory.Hub.Mailbox
import RealmDirectory.Proofs.Hub.Vacancy
import RealmDirectory.Proofs.Session.Roster

/-!
# Who has the admin slot

A `Seating` is a hub with all logins that ever asked for its admin slot. Upgrades, also ones that
others interrupt, closings and drops of the logins come in any order, and so do the calls that send
to the session that has the slot. Such a call may fetch the session first, offer its bytes later
and deal with a refusal later still, when the slot is somebody else's already.

What keeps the sessions apart is that a number is never handed out twice. The session in the slot
is the only one that carries its number among all that were ever fetched, and one login at most
has that number, until it gives it up together with the slot.

## Main results

* `Seated.step` — the invariant, one step.
* `Seating.exclusive_run` — who has the slot after any run, and what empties it.
-/

namespace RealmDirectory

/-- A login that may be in the middle of an upgrade. -/
structure Caller where
  login : AdminLogin
  /-- The session it was given the slot for, while it does not know its number yet. -/
  pending : Option AdminSession
  isDropped : Bool

namespace Caller

/-- The number of the login, be it one that it does not know yet. -/
def number (caller : Caller) : Option Nat :=
  match caller.pending with
  | some session => some session.id
  | none => caller.login.session

/-- The login is there and in no call. -/
def isFree (caller : Caller) : Bool := !caller.isDropped && caller.pending.isNone

private theorem isFree_iff {caller : Caller} :
    caller.isFree = true ↔ caller.isDropped = false ∧ caller.pending = none := by
  unfold isFree
  rw [Bool.and_eq_true, Bool.not_eq_true', Option.isNone_iff_eq_none]

/-- Between calls a login knows its number. -/
theorem number_eq_session {caller : Caller} (h : caller.pending = none) :
    caller.number = caller.login.session := by
  unfold number
  rw [h]

private theorem number_eq_pending {caller : Caller} {session : AdminSession}
    (h : caller.pending = some session) : caller.number = some session.id := by
  unfold number
  rw [h]

end Caller

/-- A frame that was not taken, and that nobody has dealt with yet. -/
structure Refusal (σ : Type) [Transport σ] where
  session : AdminSession
  cause : DeliveryError
  answered : ∃ bytes before after,
    Transport.offer session.sink bytes (before : σ) = (.error cause, after)

/-- A hub with the logins that may become its admin session. -/
structure Seating (σ : Type) [Transport σ] where
  hub : Hub σ
  callers : List Caller
  /-- Sessions that were looked up to send them something. -/
  fetched : List AdminSession
  refusals : List (Refusal σ)
  /-- The numbers handed out, in order. -/
  issued : List Nat

inductive SeatingStep (σ : Type) where
  /-- A new login. -/
  | arrive (peer : Endpoint) (sink : SinkId)
  /-- An upgrade that nobody interrupts. -/
  | upgrade (caller : Nat) (access : AccessLevel)
  /-- The first part of an upgrade; from now on the list of realms may be offered. -/
  | request (caller : Nat) (access : AccessLevel)
  /-- The last part of an upgrade. -/
  | enter (caller : Nat)
  | close (caller : Nat)
  | drop (caller : Nat)
  /-- The session that has the slot is looked up. -/
  | fetch
  /-- Bytes are offered to the sink of a session that was looked up. -/
  | offer (place : Nat) (bytes : List UInt8)
  /-- A refusal is dealt with. -/
  | fail (place : Nat)
  /-- A call that is not about the slot. -/
  | operate (op : Operation) (h : op.isAboutSlot = false)
  | harvest (arrivals : Arrivals)
  /-- Anything else changes, but not the slot. -/
  | surroundings (hub : Hub σ)

namespace Seating

variable {σ : Type} [Transport σ]

def start (transport : σ) : Seating σ := ⟨Hub.start transport, [], [], [], []⟩

/-- The sessions that somebody still has in hand. -/
def inHand (s : Seating σ) : List AdminSession := s.fetched ++ s.refusals.map (·.session)

/-- A step of one login; nothing happens if it is not its turn. -/
def turn (s : Seating σ) (k : Nat) (isTurn : Caller → Bool) (change : Caller → Seating σ) :
    Seating σ :=
  match s.callers[k]? with
  | none => s
  | some caller => if isTurn caller then change caller else s

def upgraded (s : Seating σ) (k : Nat) (access : AccessLevel) (caller : Caller) : Seating σ :=
  let (answer, login, hub) := caller.login.upgrade access s.hub
  { s with
    hub
    callers := s.callers.set k { caller with login }
    issued := s.issued ++ answer.toOption.toList }

def requested (s : Seating σ) (k : Nat) (access : AccessLevel) (caller : Caller) : Seating σ :=
  let (pending, hub) := caller.login.request access s.hub
  { s with
    hub
    callers := s.callers.set k { caller with pending }
    fetched := s.fetched ++ pending.toList
    issued := s.issued ++ (pending.map (·.id)).toList }

def entered (s : Seating σ) (k : Nat) (caller : Caller) : Seating σ :=
  match caller.pending with
  | none => s
  | some session =>
    let (login, hub) := caller.login.enter session s.hub
    { s with hub, callers := s.callers.set k { caller with login, pending := none } }

/-- A login gives its number up; dropping it does the same for the last time. -/
def closed (s : Seating σ) (k : Nat) (isDropped : Bool) (caller : Caller) : Seating σ :=
  let (login, hub) := caller.login.close s.hub
  { s with hub, callers := s.callers.set k { caller with login, isDropped } }

/-- A sink answers; a refusal is not dealt with yet. -/
def offered (s : Seating σ) (session : AdminSession) (bytes : List UInt8) : Seating σ :=
  match h : Transport.offer session.sink bytes s.hub.transport with
  | (.ok (), transport) => { s with hub.transport := transport }
  | (.error cause, transport) =>
    { s with
      hub.transport := transport
      refusals := s.refusals ++ [⟨session, cause, bytes, s.hub.transport, transport, h⟩] }

/-- One step. -/
def step (s : Seating σ) : SeatingStep σ → Seating σ
  | .arrive peer sink =>
    { s with callers := s.callers ++ [⟨AdminLogin.create peer sink, none, false⟩] }
  | .upgrade k access => s.turn k Caller.isFree (s.upgraded k access)
  | .request k access => s.turn k Caller.isFree (s.requested k access)
  | .enter k => s.turn k (fun _ => true) (s.entered k)
  | .close k => s.turn k Caller.isFree (s.closed k false)
  | .drop k => s.turn k Caller.isFree (s.closed k true)
  | .fetch => { s with fetched := s.fetched ++ s.hub.slot.current.toList }
  | .offer i bytes =>
    match s.fetched[i]? with
    | none => s
    | some session => s.offered session bytes
  | .fail j =>
    match s.refusals[j]? with
    | none => s
    | some refusal => { s with hub := s.hub.sinkFailed refusal.session.id refusal.cause }
  | .operate op _ => { s with hub := op.run s.hub }
  | .harvest arrivals => { s with hub := (s.hub.harvestAmid arrivals).hub }
  | .surroundings hub => { s with hub := { hub with slot := s.hub.slot } }

def run (s : Seating σ) (steps : List (SeatingStep σ)) : Seating σ := steps.foldl step s

/-! ## The invariant -/

/-- The numbers handed out before `next`. -/
structure Issued (issued : List Nat) (next : Nat) : Prop where
  count : next = issued.length + 1
  increasing : issued.Pairwise (· < ·)
  below : ∀ id ∈ issued, id < next

private theorem Issued.concat {issued : List Nat} {next : Nat} (h : Issued issued next) :
    Issued (issued ++ [next]) (next + 1) where
  count := by rw [List.length_append, List.length_singleton, h.count]
  increasing := by
    refine List.pairwise_append.mpr ⟨h.increasing, List.pairwise_singleton _ _, ?_⟩
    intro id hid last hlast
    rw [List.mem_singleton.mp hlast]
    exact h.below id hid
  below id hid := by
    rcases List.mem_append.mp hid with hold | hlast
    · exact Nat.lt_succ_of_lt (h.below id hold)
    · rw [List.mem_singleton.mp hlast]
      exact Nat.lt_succ_self _

/-- Every number was handed out once, to one login, and whoever has a session in hand whose number
is that of the slot has the session of the slot. -/
structure Seated (s : Seating σ) : Prop where
  numbers : Issued s.issued s.hub.slot.nextId
  held : ∀ {k : Nat} {caller : Caller} {n : Nat}, s.callers[k]? = some caller →
    caller.number = some n → n ∈ s.issued ∧ caller.isDropped = false
  unique : ∀ {j k : Nat} {a b : Caller} {n : Nat}, s.callers[j]? = some a →
    s.callers[k]? = some b → a.number = some n → b.number = some n → j = k
  seat : ∀ {session : AdminSession}, s.hub.slot.current = some session →
    ∃ (k : Nat) (caller : Caller), s.callers[k]? = some caller ∧
      caller.number = some session.id ∧ caller.login.sink = session.sink
  known : ∀ {session : AdminSession}, session ∈ s.inHand →
    session.id ∈ s.issued ∧
      ∀ {current : AdminSession}, s.hub.slot.current = some current →
        current.id = session.id → current = session

section Steps

variable {s : Seating σ} {k : Nat} {caller : Caller}

private theorem seated_start (transport : σ) : (start transport).Seated where
  numbers := ⟨rfl, List.Pairwise.nil, nofun⟩
  held := nofun
  unique := nofun
  seat := nofun
  known := nofun

/-- The number of the session in the slot was handed out. -/
theorem Seated.current_mem (h : s.Seated) {session : AdminSession}
    (hcurrent : s.hub.slot.current = some session) : session.id ∈ s.issued := by
  obtain ⟨_, _, hcaller, hnumber, -⟩ := h.seat hcurrent
  exact (h.held hcaller hnumber).1

/-- A hub with the same slot, or with an empty one. -/
theorem Seated.hub (h : s.Seated) {hub : Hub σ} (hnext : hub.slot.nextId = s.hub.slot.nextId)
    (hcurrent : ∀ {session}, hub.slot.current = some session →
      s.hub.slot.current = some session) : ({ s with hub } : Seating σ).Seated where
  numbers := hnext ▸ h.numbers
  held := h.held
  unique := h.unique
  seat hsession := h.seat (hcurrent hsession)
  known hsession := ⟨(h.known hsession).1,
    fun hother => (h.known hsession).2 (hcurrent hother)⟩

/-- Emptying the slot takes a session from nobody who holds another one. -/
theorem Seated.without (h : s.Seated) {hub : Hub σ} {id : Nat}
    (hslot : hub.slot = s.hub.slot.without id) : ({ s with hub } : Seating σ).Seated := by
  rcases s.hub.slot.without_cases id with ⟨-, heq⟩ | ⟨_, -, -, heq⟩
  · rw [heq] at hslot
    exact h.hub (by rw [hslot]) fun hcurrent => hslot ▸ hcurrent
  · rw [heq] at hslot
    refine h.hub (by rw [hslot]) fun hcurrent => ?_
    rw [hslot] at hcurrent
    cases hcurrent

private theorem Seated.sends (h : s.Seated) {hub : Hub σ} (hsends : s.hub.Sends hub) :
    ({ s with hub } : Seating σ).Seated := by
  cases hsends with
  | kept hslot => exact h.hub (by rw [hslot]) fun hcurrent => hslot ▸ hcurrent
  | closed hbefore hoffer hslot =>
    refine h.hub (by rw [hslot]) fun hcurrent => ?_
    rw [hslot] at hcurrent
    cases hcurrent

private theorem Seated.inHand (h : s.Seated) {fetched : List AdminSession}
    {refusals : List (Refusal σ)}
    (hknown : ∀ session ∈ ({ s with fetched, refusals } : Seating σ).inHand,
      session ∈ s.inHand ∨ s.hub.slot.current = some session) :
    ({ s with fetched, refusals } : Seating σ).Seated where
  numbers := h.numbers
  held := h.held
  unique := h.unique
  seat := h.seat
  known {session} hsession := by
    rcases hknown session hsession with hold | hnew
    · exact h.known hold
    · refine ⟨h.current_mem hnew, fun {current} hcurrent _ => ?_⟩
      exact Option.some.inj (hcurrent.symm.trans hnew)

/-- A login keeps its number, or it has none afterwards and does not have the slot. -/
theorem Seated.changed (h : s.Seated) (hcaller : s.callers[k]? = some caller) (changed : Caller)
    (hnumber : ∀ n, changed.number = some n →
      caller.number = some n ∧ changed.isDropped = false)
    (hsink : changed.login.sink = caller.login.sink) {hub : Hub σ}
    (hnext : hub.slot.nextId = s.hub.slot.nextId)
    (hcurrent : ∀ {session}, hub.slot.current = some session →
      s.hub.slot.current = some session ∧
        (caller.number = some session.id → changed.number = some session.id)) :
    ({ s with hub, callers := s.callers.set k changed } : Seating σ).Seated := by
  have hlookup := Roster.getElem?_set_member hcaller changed
  have hback : ∀ {j : Nat} {found : Caller} {n : Nat},
      (s.callers.set k changed)[j]? = some found → found.number = some n →
      ∃ before, s.callers[j]? = some before ∧ before.number = some n := by
    intro j found n hfound hn
    rw [hlookup] at hfound
    split at hfound
    · next heq =>
      cases hfound
      exact ⟨caller, heq ▸ hcaller, (hnumber n hn).1⟩
    · exact ⟨found, hfound, hn⟩
  refine
    { numbers := hnext ▸ h.numbers
      held := fun {j found n} hfound hn => ?_
      unique := fun hfirst hsecond hm hn => ?_
      seat := fun {session} hsession => ?_
      known := fun hsession => ⟨(h.known hsession).1,
        fun hother => (h.known hsession).2 (hcurrent hother).1⟩ }
  · obtain ⟨before, hbefore, hnumbered⟩ := hback hfound hn
    obtain ⟨hissued, hthere⟩ := h.held hbefore hnumbered
    refine ⟨hissued, ?_⟩
    rw [hlookup] at hfound
    split at hfound
    · cases hfound
      exact (hnumber n hn).2
    · cases hbefore.symm.trans hfound
      exact hthere
  · obtain ⟨_, hfirst', hm'⟩ := hback hfirst hm
    obtain ⟨_, hsecond', hn'⟩ := hback hsecond hn
    exact h.unique hfirst' hsecond' hm' hn'
  · obtain ⟨hbefore, hkept⟩ := hcurrent hsession
    obtain ⟨j, holder, hholder, hid, hown⟩ := h.seat hbefore
    by_cases heq : j = k
    · rw [heq, hcaller] at hholder
      cases hholder
      exact ⟨k, changed, (hlookup k).trans (if_pos rfl), hkept hid, hsink.trans hown⟩
    · exact ⟨j, holder, (hlookup j).trans ((if_neg heq).trans hholder), hid, hown⟩

/-- A login without a number claims the empty slot. -/
theorem Seated.claimed (h : s.Seated) (hcaller : s.callers[k]? = some caller) (changed : Caller)
    (hnumber : changed.number = some s.hub.slot.nextId) (hthere : changed.isDropped = false)
    {hub : Hub σ}
    (hslot : hub.slot =
      ⟨some ⟨s.hub.slot.nextId, changed.login.sink⟩, s.hub.slot.nextId + 1⟩)
    {fetched : List AdminSession}
    (hfetched : ∀ session ∈ fetched,
      session ∈ s.fetched ∨ session = ⟨s.hub.slot.nextId, changed.login.sink⟩) :
    ({ s with
      hub
      callers := s.callers.set k changed
      fetched
      issued := s.issued ++ [s.hub.slot.nextId] } : Seating σ).Seated := by
  have hlookup := Roster.getElem?_set_member hcaller changed
  have hnew : ∀ {j : Nat} {found : Caller} {n : Nat},
      (s.callers.set k changed)[j]? = some found → found.number = some n →
      j = k ∧ n = s.hub.slot.nextId ∧ found = changed ∨
        s.callers[j]? = some found ∧ n ∈ s.issued := by
    intro j found n hfound hn
    rw [hlookup] at hfound
    split at hfound
    · next heq =>
      cases hfound
      exact Or.inl ⟨heq, Option.some.inj (hn.symm.trans hnumber), rfl⟩
    · exact Or.inr ⟨hfound, (h.held hfound hn).1⟩
  refine
    { numbers := ?_
      held := fun hfound hn => ?_
      unique := fun {i j a b n} hfirst hsecond hm hn => ?_
      seat := fun {session} hsession => ?_
      known := fun {session} hsession => ?_ }
  · show Issued (s.issued ++ [_]) hub.slot.nextId
    rw [hslot]
    exact h.numbers.concat
  · rcases hnew hfound hn with ⟨-, rfl, rfl⟩ | ⟨hold, hissued⟩
    · exact ⟨List.mem_append_right _ List.mem_cons_self, hthere⟩
    · exact ⟨List.mem_append_left _ hissued, (h.held hold hn).2⟩
  · rcases hnew hfirst hm with ⟨hi, rfl, -⟩ | ⟨hfirst', hissued⟩ <;>
      rcases hnew hsecond hn with ⟨hj, heq, -⟩ | ⟨hsecond', hissued'⟩
    · exact hi.trans hj.symm
    · exact absurd (h.numbers.below _ hissued') (Nat.lt_irrefl _)
    · exact absurd (heq ▸ h.numbers.below _ hissued) (Nat.lt_irrefl _)
    · exact h.unique hfirst' hsecond' hm hn
  · have hcurrent : hub.slot.current = some session := hsession
    rw [hslot] at hcurrent
    cases hcurrent
    exact ⟨k, changed, (hlookup k).trans (if_pos rfl), hnumber, rfl⟩
  · have hcases : session ∈ s.inHand ∨
        session = ⟨s.hub.slot.nextId, changed.login.sink⟩ := by
      rcases List.mem_append.mp hsession with hmem | hmem
      · exact (hfetched session hmem).imp_left (List.mem_append_left _)
      · exact Or.inl (List.mem_append_right _ hmem)
    show session.id ∈ s.issued ++ [_] ∧
      ∀ {current}, hub.slot.current = some current → current.id = session.id → current = session
    rw [hslot]
    rcases hcases with hold | rfl
    · have hissued := (h.known hold).1
      refine ⟨List.mem_append_left _ hissued, fun hcurrent hid => ?_⟩
      cases hcurrent
      exact absurd hid (Nat.ne_of_gt (h.numbers.below _ hissued))
    · refine ⟨List.mem_append_right _ List.mem_cons_self, fun hcurrent _ => ?_⟩
      cases hcurrent
      rfl

/-! ### What the parts of a call come to -/

/-- Only a caller whose turn it is changes anything. -/
theorem turn_cases (s : Seating σ) (k : Nat) (isTurn : Caller → Bool)
    (change : Caller → Seating σ) :
    s.turn k isTurn change = s ∨
      ∃ caller, s.callers[k]? = some caller ∧ isTurn caller = true ∧
        s.turn k isTurn change = change caller := by
  unfold turn
  cases hcaller : s.callers[k]? with
  | none => exact Or.inl rfl
  | some caller =>
    by_cases hturn : isTurn caller = true
    · exact Or.inr ⟨caller, rfl, hturn, if_pos hturn⟩
    · exact Or.inl (if_neg hturn)

/-- An upgrade is turned down, or it claims the empty slot and sends to the new session. -/
theorem upgraded_cases (s : Seating σ) (k : Nat) (access : AccessLevel) (caller : Caller) :
    (∃ hub, hub.slot = s.hub.slot ∧
      s.upgraded k access caller = { s with hub, callers := s.callers.set k caller }) ∨
    (s.hub.slot.current = none ∧ ∃ claimed hub : Hub σ,
      claimed.slot =
        ⟨some ⟨s.hub.slot.nextId, caller.login.sink⟩, s.hub.slot.nextId + 1⟩ ∧
      claimed.Sends hub ∧
      s.upgraded k access caller =
        { s with
          hub
          callers := s.callers.set k
            { caller with login.session := some s.hub.slot.nextId }
          issued := s.issued ++ [s.hub.slot.nextId] }) := by
  unfold upgraded
  obtain ⟨hanswer, hafter⟩ := caller.login.upgrade_eq access s.hub
  generalize caller.login.upgrade access s.hub = result at hanswer hafter ⊢
  obtain ⟨answer, login, hub⟩ := result
  dsimp only at hanswer hafter ⊢
  rcases caller.login.request_cases access s.hub with
    ⟨after, hrequest, hslot⟩ | ⟨-, hempty, after, hrequest, hslot⟩
  · rw [hrequest] at hanswer hafter
    cases hafter
    rw [hanswer]
    exact Or.inl ⟨hub, hslot, by rw [Option.map_none, Option.toList_none, List.append_nil]⟩
  · rw [hrequest] at hanswer hafter
    cases hafter
    rw [hanswer]
    have hcurrent : after.slot.current = some ⟨s.hub.slot.nextId, caller.login.sink⟩ := by
      rw [hslot]
    refine Or.inr ⟨hempty, after, _, hslot, ?_, rfl⟩
    exact (Hub.sends_sendList hcurrent after.realms.snapshots).congr rfl rfl rfl

/-- The same of the first part alone, which leaves the number with the call. -/
theorem requested_cases (s : Seating σ) (k : Nat) (access : AccessLevel) (caller : Caller) :
    (∃ hub, hub.slot = s.hub.slot ∧
      s.requested k access caller =
        { s with hub, callers := s.callers.set k { caller with pending := none } }) ∨
    (s.hub.slot.current = none ∧ ∃ hub : Hub σ,
      hub.slot = ⟨some ⟨s.hub.slot.nextId, caller.login.sink⟩, s.hub.slot.nextId + 1⟩ ∧
      s.requested k access caller =
        { s with
          hub
          callers := s.callers.set k
            { caller with pending := some ⟨s.hub.slot.nextId, caller.login.sink⟩ }
          fetched := s.fetched ++ [⟨s.hub.slot.nextId, caller.login.sink⟩]
          issued := s.issued ++ [s.hub.slot.nextId] }) := by
  unfold requested
  rcases caller.login.request_cases access s.hub with
    ⟨after, hrequest, hslot⟩ | ⟨-, hempty, after, hrequest, hslot⟩
  · rw [hrequest]
    refine Or.inl ⟨after, hslot, ?_⟩
    dsimp only
    rw [Option.map_none, Option.toList_none, Option.toList_none, List.append_nil, List.append_nil]
  · rw [hrequest]
    exact Or.inr ⟨hempty, after, hslot, rfl⟩

/-- A login that is closed has no number afterwards, and the slot is without its session. -/
theorem closed_cases (s : Seating σ) (k : Nat) (isDropped : Bool) (caller : Caller) :
    ∃ hub : Hub σ,
      s.closed k isDropped caller =
        { s with
          hub
          callers := s.callers.set k { caller with login.session := none, isDropped } } ∧
      (caller.login.session = none ∧ hub.slot = s.hub.slot ∨
        ∃ n, caller.login.session = some n ∧ hub.slot = s.hub.slot.without n) := by
  obtain ⟨⟨peer, sink, session?⟩, pending, _⟩ := caller
  unfold closed AdminLogin.close
  cases session? with
  | none => exact ⟨s.hub, rfl, Or.inl ⟨rfl, rfl⟩⟩
  | some n => exact ⟨_, rfl, Or.inr ⟨n, rfl, Hub.slot_evict s.hub n⟩⟩

/-! ### Each step -/

private theorem Seated.upgraded (h : s.Seated) (hcaller : s.callers[k]? = some caller)
    (hfree : caller.isFree = true) (access : AccessLevel) :
    (s.upgraded k access caller).Seated := by
  obtain ⟨hthere, hpending⟩ := Caller.isFree_iff.mp hfree
  rcases s.upgraded_cases k access caller with
    ⟨hub, hslot, heq⟩ | ⟨-, claimed, hub, hslot, hsends, heq⟩
  · rw [heq]
    exact h.changed hcaller caller (fun n hn => ⟨hn, hthere⟩) rfl (by rw [hslot])
      fun hcurrent => ⟨hslot ▸ hcurrent, id⟩
  · rw [heq]
    have hclaimed := h.claimed hcaller { caller with login.session := some s.hub.slot.nextId }
      (Caller.number_eq_session hpending) hthere hslot fun session hold => Or.inl hold
    exact hclaimed.sends hsends

/-- A login that asks for an upgrade hands out the next number at most. -/
theorem Seated.requested (h : s.Seated) (hcaller : s.callers[k]? = some caller)
    (hfree : caller.isFree = true) (access : AccessLevel) :
    (s.requested k access caller).Seated := by
  obtain ⟨hthere, hpending⟩ := Caller.isFree_iff.mp hfree
  rcases s.requested_cases k access caller with ⟨hub, hslot, heq⟩ | ⟨-, hub, hslot, heq⟩
  · rw [heq]
    have hnumber := Caller.number_eq_session hpending
    exact h.changed hcaller { caller with pending := none }
      (fun n hn => ⟨hnumber.trans hn, hthere⟩) rfl (by rw [hslot])
      fun hcurrent => ⟨hslot ▸ hcurrent, fun hid => hnumber.symm.trans hid⟩
  · rw [heq]
    refine h.claimed hcaller
      { caller with pending := some ⟨s.hub.slot.nextId, caller.login.sink⟩ } rfl hthere hslot
      fun session hmem => ?_
    rcases List.mem_append.mp hmem with hold | hnew
    · exact Or.inl hold
    · exact Or.inr (List.mem_singleton.mp hnew)

/-- A login that enters has the number that was handed out to its call. -/
theorem Seated.entered (h : s.Seated) (hcaller : s.callers[k]? = some caller) :
    (s.entered k caller).Seated := by
  unfold Seating.entered
  cases hpending : caller.pending with
  | none => exact h
  | some session =>
    have hnumber := Caller.number_eq_pending hpending
    have hthere := (h.held hcaller hnumber).2
    exact h.changed hcaller
      { caller with login := (caller.login.enter session s.hub).1, pending := none }
      (fun n hn => ⟨hnumber.trans hn, hthere⟩) rfl rfl
      fun hcurrent => ⟨hcurrent, fun hid => hnumber.symm.trans hid⟩

/-- A caller that closes gives back only its own session. -/
theorem Seated.closed (h : s.Seated) (hcaller : s.callers[k]? = some caller)
    (hfree : caller.isFree = true) (isDropped : Bool) : (s.closed k isDropped caller).Seated := by
  obtain ⟨-, hpending⟩ := Caller.isFree_iff.mp hfree
  have hnumber := Caller.number_eq_session hpending
  obtain ⟨hub, heq, hslot⟩ := s.closed_cases k isDropped caller
  rw [heq]
  have hnone : ({ caller with login.session := none, isDropped } : Caller).number = none :=
    Caller.number_eq_session hpending
  -- the slot keeps a session of another number only
  have hothers : hub.slot.nextId = s.hub.slot.nextId ∧
      ∀ {session}, hub.slot.current = some session →
        s.hub.slot.current = some session ∧ caller.number ≠ some session.id := by
    rcases hslot with ⟨hsession, hslot⟩ | ⟨n, hsession, hslot⟩
    · rw [hslot, hnumber, hsession]
      exact ⟨rfl, fun hcurrent => ⟨hcurrent, nofun⟩⟩
    · rw [hslot, hnumber, hsession]
      rcases s.hub.slot.without_cases n with ⟨hother, heq⟩ | ⟨_, -, -, heq⟩
      · rw [heq]
        exact ⟨rfl, fun hcurrent =>
          ⟨hcurrent, fun hid => hother _ hcurrent (Option.some.inj hid).symm⟩⟩
      · rw [heq]
        exact ⟨rfl, nofun⟩
  exact h.changed hcaller { caller with login.session := none, isDropped }
    (fun n hn => nomatch hnone.symm.trans hn) rfl hothers.1
    fun hcurrent => ⟨(hothers.2 hcurrent).1, fun hid => absurd hid (hothers.2 hcurrent).2⟩

/-- What a sink answers touches neither the slot nor a number. -/
theorem Seated.offered (h : s.Seated) {session : AdminSession} (hsession : session ∈ s.fetched)
    (bytes : List UInt8) : (s.offered session bytes).Seated := by
  have hkept : ∀ transport, ({ s with hub.transport := transport } : Seating σ).Seated :=
    fun _ => h.hub rfl id
  unfold Seating.offered
  split
  · exact hkept _
  · refine (hkept _).inHand fun other hmem => Or.inl ?_
    rcases List.mem_append.mp hmem with hfetched | hrefused
    · exact List.mem_append_left _ hfetched
    · rw [List.map_append] at hrefused
      rcases List.mem_append.mp hrefused with hold | hnew
      · exact List.mem_append_right _ hold
      · rw [List.map_singleton, List.mem_singleton] at hnew
        rw [hnew]
        exact List.mem_append_left _ hsession

theorem Seated.arrived (h : s.Seated) (peer : Endpoint) (sink : SinkId) :
    ({ s with callers := s.callers ++ [⟨AdminLogin.create peer sink, none, false⟩] } :
      Seating σ).Seated := by
  have hold : ∀ {j : Nat} {found : Caller} {n : Nat},
      (s.callers ++ [⟨AdminLogin.create peer sink, none, false⟩])[j]? = some found →
      found.number = some n → s.callers[j]? = some found := by
    intro j found n hfound hn
    rcases Roster.getElem?_concat_cases hfound with ⟨hbefore, -⟩ | ⟨-, rfl⟩
    · exact hbefore
    · cases hn
  refine
    { numbers := h.numbers
      held := fun hfound hn => h.held (hold hfound hn) hn
      unique := fun hfirst hsecond hm hn => h.unique (hold hfirst hm) (hold hsecond hn) hm hn
      seat := fun hcurrent => ?_
      known := h.known }
  obtain ⟨j, holder, hholder, hid, hsink⟩ := h.seat hcurrent
  obtain ⟨hlt, -⟩ := List.getElem?_eq_some_iff.mp hholder
  exact ⟨j, holder, (List.getElem?_append_left hlt).trans hholder, hid, hsink⟩

theorem Seated.turn (h : s.Seated) {isTurn : Caller → Bool} {change : Caller → Seating σ}
    (hchange : ∀ caller, s.callers[k]? = some caller → isTurn caller = true →
      (change caller).Seated) : (s.turn k isTurn change).Seated := by
  rcases s.turn_cases k isTurn change with heq | ⟨caller, hcaller, hturn, heq⟩
  · rw [heq]
    exact h
  · rw [heq]
    exact hchange caller hcaller hturn

/-- A failed delivery evicts the session that it was for, or none. -/
theorem Seated.failed (h : s.Seated) (id : Nat) (cause : DeliveryError) :
    ({ s with hub := s.hub.sinkFailed id cause } : Seating σ).Seated := by
  have hslot := s.hub.slot_sinkFailed id cause
  cases cause with
  | full => exact h.hub rfl fun hcurrent => hcurrent
  | closed => exact h.without hslot

/-- Every step keeps the seating in order. -/
theorem Seated.step (h : s.Seated) (step : SeatingStep σ) : (s.step step).Seated := by
  cases step with
  | arrive peer sink => exact h.arrived peer sink
  | upgrade k access => exact h.turn fun _ hcaller hfree => h.upgraded hcaller hfree access
  | request k access => exact h.turn fun _ hcaller hfree => h.requested hcaller hfree access
  | enter k => exact h.turn fun _ hcaller _ => h.entered hcaller
  | close k => exact h.turn fun _ hcaller hfree => h.closed hcaller hfree false
  | drop k => exact h.turn fun _ hcaller hfree => h.closed hcaller hfree true
  | fetch =>
    refine h.inHand fun session hmem => ?_
    rcases List.mem_append.mp hmem with hfetched | hrefused
    · rcases List.mem_append.mp hfetched with hold | hnew
      · exact Or.inl (List.mem_append_left _ hold)
      · exact Or.inr (Option.mem_toList.mp hnew)
    · exact Or.inl (List.mem_append_right _ hrefused)
  | offer i bytes =>
    unfold Seating.step
    dsimp only
    split
    · exact h
    · next session hfetched => exact h.offered (List.mem_of_getElem? hfetched) bytes
  | fail j =>
    unfold Seating.step
    dsimp only
    split
    · exact h
    · exact h.failed _ _
  | operate op hop => exact h.sends (s.hub.sends_run hop)
  | harvest arrivals => exact h.sends (s.hub.sends_harvestAmid arrivals)
  | surroundings hub => exact h.hub rfl fun hcurrent => hcurrent

theorem Seated.run (h : s.Seated) (steps : List (SeatingStep σ)) : (s.run steps).Seated := by
  induction steps generalizing s with
  | nil => exact h
  | cons step rest ih => exact ih (h.step step)

end Steps

/-! ## What empties the slot -/

/-- A step that takes the slot from a session: the login of that session is closed or dropped, or
the sink of that session has answered that it is closed. -/
inductive Vacates (s : Seating σ) (session : AdminSession) : SeatingStep σ → Prop where
  | close {k : Nat} {caller : Caller} (hcaller : s.callers[k]? = some caller)
      (hnumber : caller.login.session = some session.id) : s.Vacates session (.close k)
  | drop {k : Nat} {caller : Caller} (hcaller : s.callers[k]? = some caller)
      (hnumber : caller.login.session = some session.id) : s.Vacates session (.drop k)
  | fail {j : Nat} {refusal : Refusal σ} (hrefusal : s.refusals[j]? = some refusal)
      (hsession : refusal.session = session) (hcause : refusal.cause = .closed) :
      s.Vacates session (.fail j)
  | operate {op : Operation} {h : op.isAboutSlot = false} {bytes : List UInt8} {transport : σ}
      (hoffer : Transport.offer session.sink bytes s.hub.transport = (.error .closed, transport)) :
      s.Vacates session (.operate op h)
  | harvest {arrivals : Arrivals} {bytes : List UInt8} {transport : σ}
      (hoffer : Transport.offer session.sink bytes s.hub.transport = (.error .closed, transport)) :
      s.Vacates session (.harvest arrivals)

section Vacating

variable {s : Seating σ} {session : AdminSession} {k : Nat}

/-- A session that has the slot keeps it when a login closes, unless it is the login's own. -/
theorem closed_vacates (hcurrent : s.hub.slot.current = some session) (k : Nat) (isDropped : Bool)
    (caller : Caller) :
    (s.closed k isDropped caller).hub.slot.current = some session ∨
      ((s.closed k isDropped caller).hub.slot.current = none ∧
        caller.login.session = some session.id) := by
  obtain ⟨hub, heq, hslot⟩ := s.closed_cases k isDropped caller
  rw [heq]
  show hub.slot.current = some session ∨ hub.slot.current = none ∧ _
  rcases hslot with ⟨-, hslot⟩ | ⟨n, hnumber, hslot⟩
  · rw [hslot]
    exact Or.inl hcurrent
  · rw [hslot]
    rcases s.hub.slot.without_cases n with ⟨-, heq⟩ | ⟨found, hfound, rfl, heq⟩
    · rw [heq]
      exact Or.inl hcurrent
    · rw [heq]
      cases hcurrent.symm.trans hfound
      exact Or.inr ⟨rfl, hnumber⟩

/-- A refusal costs the session in the slot its place only if it is this session's own, and the
sink was closed. -/
theorem Seated.failed_vacates (h : s.Seated) (hcurrent : s.hub.slot.current = some session)
    {refusal : Refusal σ} (hrefusal : refusal ∈ s.refusals) :
    (s.hub.sinkFailed refusal.session.id refusal.cause).slot.current = some session ∨
      ((s.hub.sinkFailed refusal.session.id refusal.cause).slot.current = none ∧
        refusal.session = session ∧ refusal.cause = .closed) := by
  have hinHand : refusal.session ∈ s.inHand :=
    List.mem_append_right _ (List.mem_map_of_mem hrefusal)
  rw [Hub.slot_sinkFailed]
  cases hcause : refusal.cause with
  | full => exact Or.inl hcurrent
  | closed =>
    dsimp only
    rcases s.hub.slot.without_cases refusal.session.id with ⟨-, heq⟩ | ⟨found, hfound, hid, heq⟩
    · rw [heq]
      exact Or.inl hcurrent
    · rw [heq]
      cases hcurrent.symm.trans hfound
      exact Or.inr ⟨rfl, ((h.known hinHand).2 hcurrent hid).symm, rfl⟩

private theorem current_upgraded (hcurrent : s.hub.slot.current = some session) (k : Nat)
    (access : AccessLevel) (caller : Caller) :
    (s.upgraded k access caller).hub.slot.current = some session := by
  rcases s.upgraded_cases k access caller with ⟨hub, hslot, heq⟩ | ⟨hempty, -⟩
  · rw [heq]
    exact hslot ▸ hcurrent
  · cases hcurrent.symm.trans hempty

private theorem current_requested (hcurrent : s.hub.slot.current = some session) (k : Nat)
    (access : AccessLevel) (caller : Caller) :
    (s.requested k access caller).hub.slot.current = some session := by
  rcases s.requested_cases k access caller with ⟨hub, hslot, heq⟩ | ⟨hempty, -⟩
  · rw [heq]
    exact hslot ▸ hcurrent
  · cases hcurrent.symm.trans hempty

private theorem slot_entered (s : Seating σ) (k : Nat) (caller : Caller) :
    (s.entered k caller).hub.slot = s.hub.slot := by
  unfold entered
  split <;> rfl

private theorem slot_offered (s : Seating σ) (session : AdminSession) (bytes : List UInt8) :
    (s.offered session bytes).hub.slot = s.hub.slot := by
  unfold offered
  split <;> rfl

/-- What holds if it is nobody's turn and after the change holds after the turn. -/
theorem vacates_turn (hcurrent : s.hub.slot.current = some session) {k : Nat}
    {isTurn : Caller → Bool} {change : Caller → Seating σ} {step : SeatingStep σ}
    (hchange : ∀ caller, s.callers[k]? = some caller →
      (change caller).hub.slot.current = some session ∨
        ((change caller).hub.slot.current = none ∧ s.Vacates session step)) :
    (s.turn k isTurn change).hub.slot.current = some session ∨
      ((s.turn k isTurn change).hub.slot.current = none ∧ s.Vacates session step) := by
  rcases s.turn_cases k isTurn change with heq | ⟨caller, hcaller, -, heq⟩
  · rw [heq]
    exact Or.inl hcurrent
  · rw [heq]
    exact hchange caller hcaller

private theorem vacates_sends (hcurrent : s.hub.slot.current = some session) {hub : Hub σ}
    (hsends : s.hub.Sends hub) {step : SeatingStep σ}
    (hstep : ∀ {bytes transport},
      Transport.offer session.sink bytes s.hub.transport = (.error .closed, transport) →
      s.Vacates session step) :
    hub.slot.current = some session ∨ (hub.slot.current = none ∧ s.Vacates session step) := by
  cases hsends with
  | kept hslot => exact Or.inl (hslot ▸ hcurrent)
  | closed hfound hoffer hslot =>
    cases hcurrent.symm.trans hfound
    exact Or.inr ⟨by rw [hslot], hstep hoffer⟩

/-- A session that has the slot keeps it in a step, or the slot is empty afterwards and the step is
one of those that take it from this session. -/
theorem Seated.vacates (h : s.Seated) (hcurrent : s.hub.slot.current = some session)
    (step : SeatingStep σ) :
    (s.step step).hub.slot.current = some session ∨
      ((s.step step).hub.slot.current = none ∧ s.Vacates session step) := by
  cases step with
  | arrive peer sink => exact Or.inl hcurrent
  | upgrade k access =>
    exact vacates_turn hcurrent fun caller _ => Or.inl (current_upgraded hcurrent k access caller)
  | request k access =>
    exact vacates_turn hcurrent fun caller _ => Or.inl (current_requested hcurrent k access caller)
  | enter k =>
    refine vacates_turn hcurrent fun caller _ => Or.inl ?_
    rw [slot_entered]
    exact hcurrent
  | close k =>
    exact vacates_turn hcurrent fun caller hcaller =>
      (closed_vacates hcurrent k false caller).imp_right fun ⟨hempty, hnumber⟩ =>
        ⟨hempty, .close hcaller hnumber⟩
  | drop k =>
    exact vacates_turn hcurrent fun caller hcaller =>
      (closed_vacates hcurrent k true caller).imp_right fun ⟨hempty, hnumber⟩ =>
        ⟨hempty, .drop hcaller hnumber⟩
  | fetch => exact Or.inl hcurrent
  | offer i bytes =>
    refine Or.inl ?_
    unfold Seating.step
    dsimp only
    split
    · exact hcurrent
    · rw [slot_offered]
      exact hcurrent
  | fail j =>
    unfold Seating.step
    dsimp only
    split
    · exact Or.inl hcurrent
    · next refusal hrefusal =>
      exact (h.failed_vacates hcurrent (List.mem_of_getElem? hrefusal)).imp_right
        fun ⟨hempty, hsession, hcause⟩ => ⟨hempty, .fail hrefusal hsession hcause⟩
  | operate op hop => exact vacates_sends hcurrent (s.hub.sends_run hop) .operate
  | harvest arrivals => exact vacates_sends hcurrent (s.hub.sends_harvestAmid arrivals) .harvest
  | surroundings hub => exact Or.inl hcurrent

end Vacating

/-! ## Runs -/

/-- One session at a time has the slot, and nobody else can take it away. -/
structure Exclusive (s : Seating σ) : Prop where
  /-- Numbers are handed out in strictly ascending order, and the machine word that holds them does
  not wrap around. -/
  increasing : s.issued.Pairwise (· < ·)
  bounded : s.issued.length < UInt64.size → ∀ id ∈ s.issued, id < UInt64.size
  /-- Between calls exactly one login has the number of the session in the slot. -/
  seated : ∀ {session : AdminSession}, s.hub.slot.current = some session →
    (∀ caller ∈ s.callers, caller.pending = none) →
    session.id ∈ s.issued ∧
    ∃ (k : Nat) (caller : Caller), s.callers[k]? = some caller ∧ caller.isDropped = false ∧
      caller.login.session = some session.id ∧ caller.login.sink = session.sink ∧
      ∀ (j : Nat) (other : Caller), s.callers[j]? = some other →
        other.login.session = some session.id → j = k
  /-- Nothing else empties the slot, and no step puts another session into it at once. -/
  vacated : ∀ {session : AdminSession}, s.hub.slot.current = some session →
    ∀ step, (s.step step).hub.slot.current ≠ some session →
      (s.step step).hub.slot.current = none ∧ s.Vacates session step
  /-- Once every login has been closed or dropped the slot is empty. -/
  empty : (∀ caller ∈ s.callers,
      caller.pending = none ∧ (caller.isDropped = true ∨ caller.login.session = none)) →
    s.hub.slot.current = none

/-- An ordered seating is an exclusive one. -/
theorem Seated.exclusive {s : Seating σ} (h : s.Seated) : s.Exclusive where
  increasing := h.numbers.increasing
  bounded hfew id hid := by
    have hlt := h.numbers.below id hid
    rw [h.numbers.count] at hlt
    exact Nat.lt_of_le_of_lt (Nat.le_of_lt_succ hlt) hfew
  seated {session} hcurrent hbetween := by
    obtain ⟨k, caller, hcaller, hnumber, hsink⟩ := h.seat hcurrent
    obtain ⟨hissued, hthere⟩ := h.held hcaller hnumber
    have hsession : ∀ {j : Nat} {other : Caller}, s.callers[j]? = some other →
        other.number = other.login.session := fun hother =>
      Caller.number_eq_session (hbetween _ (List.mem_of_getElem? hother))
    refine ⟨hissued, k, caller, hcaller, hthere, (hsession hcaller).symm.trans hnumber, hsink, ?_⟩
    intro j other hother hid
    exact h.unique hother hcaller ((hsession hother).trans hid) hnumber
  vacated hcurrent step hgone := (h.vacates hcurrent step).resolve_left hgone
  empty hall := by
    cases hcurrent : s.hub.slot.current with
    | none => rfl
    | some session =>
      obtain ⟨k, caller, hcaller, hnumber, -⟩ := h.seat hcurrent
      obtain ⟨hpending, hleft⟩ := hall caller (List.mem_of_getElem? hcaller)
      rcases hleft with hdropped | hnone
      · cases (h.held hcaller hnumber).2.symm.trans hdropped
      · rw [Caller.number_eq_session hpending, hnone] at hnumber
        cases hnumber

/-- After any steps of any logins and of whoever sends to them, in any order. -/
theorem exclusive_run (transport : σ) (steps : List (SeatingStep σ)) :
    ((start transport).run steps).Exclusive :=
  ((seated_start transport).run steps).exclusive

/-- A frame for the first session is refused because its mailbox was closed. Before that is dealt
with the session ends and another login is admitted, which keeps the slot. -/
def lateRefusal : List (SeatingStep Mailboxes) :=
  let closed : Mailboxes := ⟨#[(Mailbox.create 8).close, Mailbox.create 8]⟩
  [.arrive ⟨.v4 10 0 0 5, 9000, 0⟩ 0, .arrive ⟨.v4 10 0 0 6, 9000, 0⟩ 1,
    .upgrade 0 .administrator, .fetch, .surroundings (Hub.start closed), .offer 0 [0], .close 0,
    .upgrade 1 .administrator, .fail 0]

example :
    let boxes : Mailboxes := ⟨#[Mailbox.create 8, Mailbox.create 8]⟩
    ((start boxes).run lateRefusal).hub.slot.current = some ⟨2, 1⟩ := by
  decide +kernel

end Seating

end RealmDirectory
