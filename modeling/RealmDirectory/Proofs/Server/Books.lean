import Mathlib.Data.List.Perm.Subperm
import RealmDirectory.Proofs.Server.Step

/-!
# The books of a server

A server counts a session from the moment at which it takes the connection on until it has joined
the session, which it does only when the session has ended. So the sessions that are open are among
those that it counts, of which there are never more than the settings allow; and when none is left
to count, all have ended.

A session that has ended was torn down: its link is closed, and the realm under it, if there is
one, is offline. That stays so, because no other connection does anything under this link, and
nobody else has it.

## Main definitions

* `Server.Kept` — the invariant.

## Main results

* `Server.Kept.step` — every step keeps it.
* `Server.roll_run` — for whom the sessions were started.
* `Server.balanced_run` — what the books say after any list of steps.
-/

namespace RealmDirectory

variable {σ : Type}

namespace Server

variable {server : Server σ} {i : Nat} {x : Exchange}

/-- What every step keeps. -/
structure Kept (server : Server σ) : Prop where
  length_le : server.sessions.length ≤ server.settings.maxConnections
  nodup : server.sessions.Nodup
  mem_lt : ∀ i ∈ server.sessions, i < server.service.exchanges.size
  ended : ∀ {i x}, server.service.get? i = some x → i ∉ server.sessions →
    x.connection.hasEnded = true
  stopped : server.phase = .stopped → server.sessions = []
  link_lt : ∀ {i x}, server.service.get? i = some x →
    x.connection.session.link < server.service.hub.links.all.size
  link_inj : ∀ {i j x y}, server.service.get? i = some x → server.service.get? j = some y →
    x.connection.session.link = y.connection.session.link → i = j
  owner_lt : ∀ {id standing link}, server.service.hub.realms.standing? id = some standing →
    standing.owner = some link → link < server.service.hub.links.all.size
  tidy : ∀ {i x}, server.service.get? i = some x → x.connection.Tidy server.service.hub

private theorem kept_create (settings : Settings) (listener : Endpoint)
    (adminListener : Option Endpoint) (transport : σ) :
    (create settings listener adminListener transport).Kept := by
  have hnone : ∀ i, (create settings listener adminListener transport).service.get? i = none :=
    fun _ => rfl
  have hstanding : ∀ id, (create settings listener adminListener
      transport).service.hub.realms.standing? id = none := fun _ => rfl
  exact
    { length_le := Nat.zero_le _
      nodup := List.nodup_nil
      mem_lt := List.forall_mem_nil _
      ended := fun hget => by simp [hnone] at hget
      stopped := nofun
      link_lt := fun hget => by simp [hnone] at hget
      link_inj := fun hget => by simp [hnone] at hget
      owner_lt := fun hsome => by simp [hstanding] at hsome
      tidy := fun hget => by simp [hnone] at hget }

/-- Something happens on one connection. -/
theorem Kept.put (h : server.Kept) (hget : server.service.get? i = some x) {y : Exchange}
    {hub : Hub σ} (hserves : x.connection.Serves server.service.hub (y.connection, hub)) :
    (server.put i y hub).Kept := by
  have hlookup := get?_put hget y hub
  have hsize : (server.put i y hub).service.exchanges.size = server.service.exchanges.size :=
    Array.size_setIfInBounds
  have hcases : ∀ {j z}, (server.put i y hub).service.get? j = some z →
      j = i ∧ z = y ∨ j ≠ i ∧ server.service.get? j = some z := by
    intro j z hz
    rw [hlookup] at hz
    by_cases hj : j = i
    · rw [if_pos hj] at hz
      exact Or.inl ⟨hj, (Option.some.inj hz).symm⟩
    · rw [if_neg hj] at hz
      exact Or.inr ⟨hj, hz⟩
  refine
    { length_le := h.length_le
      nodup := h.nodup
      mem_lt := fun j hj => by rw [hsize]; exact h.mem_lt j hj
      ended := ?_
      stopped := h.stopped
      link_lt := ?_
      link_inj := ?_
      owner_lt := ?_
      tidy := ?_ }
  · intro j z hz hnot
    rcases hcases hz with ⟨rfl, rfl⟩ | ⟨-, hold⟩
    · exact hserves.ended (h.ended hget hnot)
    · exact h.ended hold hnot
  · intro j z hz
    refine Nat.lt_of_lt_of_le ?_ hserves.spares.size_le
    rcases hcases hz with ⟨rfl, rfl⟩ | ⟨-, hold⟩
    · rw [hserves.link_eq]
      exact h.link_lt hget
    · exact h.link_lt hold
  · intro j k z w hz hw hlink
    rcases hcases hz with ⟨rfl, rfl⟩ | ⟨hj, hzold⟩
    · rcases hcases hw with ⟨rfl, -⟩ | ⟨hk, hwold⟩
      · rfl
      · exact h.link_inj hget hwold (hserves.link_eq.symm.trans hlink)
    · rcases hcases hw with ⟨rfl, rfl⟩ | ⟨-, hwold⟩
      · exact h.link_inj hzold hget (hlink.trans hserves.link_eq)
      · exact h.link_inj hzold hwold hlink
  · intro id standing link hstanding howner
    refine Nat.lt_of_lt_of_le ?_ hserves.spares.size_le
    by_cases hlink : x.connection.session.link = link
    · rw [← hlink]
      exact h.link_lt hget
    · have hne : some x.connection.session.link ≠ some link := by simpa using hlink
      exact h.owner_lt (hserves.spares.standing?_eq hstanding howner hne) howner
  · intro j z hz
    rcases hcases hz with ⟨rfl, rfl⟩ | ⟨hj, hold⟩
    · exact hserves.tidy (h.tidy hget)
    · refine (h.tidy hold).spares hserves.spares ?_ (h.link_lt hold)
      intro heq
      exact hj (h.link_inj hold hget (Option.some.inj heq).symm)

/-- What serves one connection leaves the books of the others in order. -/
theorem Kept.onConnection (h : server.Kept) {act : Connection → Hub σ → Connection × Hub σ}
    (hact : ∀ c hub, Connection.Serves c hub (act c hub)) : (server.onConnection i act).Kept := by
  unfold Server.onConnection onExchange
  cases hget : server.service.get? i with
  | none => exact h
  | some x => exact h.put hget (hact x.connection server.service.hub)

/-- The hub changes, but not under the link of any connection, and the books stay as they are. -/
theorem Kept.aside (h : server.Kept) {after : Server σ} {link : Option LinkId}
    (hsettings : after.settings = server.settings) (hsessions : after.sessions = server.sessions)
    (hphase : after.phase = .stopped → server.sessions = [])
    (hexchanges : after.service.exchanges = server.service.exchanges)
    (hspares : server.service.hub.Spares link after.service.hub)
    (hforeign : ∀ other, link = some other → server.isReserved other = false) : after.Kept := by
  have hlookup : ∀ i, after.service.get? i = server.service.get? i :=
    fun i => congrArg (·[i]?) hexchanges
  have hfree : ∀ {other}, link = some other → other < server.service.hub.links.all.size ∧
      ∀ {i x}, server.service.get? i = some x → x.connection.session.link ≠ other := by
    intro other hlink
    obtain ⟨hknown, hnone⟩ := Bool.or_eq_false_iff.mp (hforeign other hlink)
    refine ⟨by simpa using hknown, ?_⟩
    intro i x hget heq
    obtain ⟨hlt, hx⟩ := Array.getElem?_eq_some_iff.mp hget
    have hother := Array.any_eq_false.mp hnone i hlt
    rw [hx] at hother
    exact hother (beq_iff_eq.mpr heq)
  refine
    { length_le := by rw [hsessions, hsettings]; exact h.length_le
      nodup := by rw [hsessions]; exact h.nodup
      mem_lt := by rw [hsessions, hexchanges]; exact h.mem_lt
      ended := fun hget => by rw [hlookup] at hget; rw [hsessions]; exact h.ended hget
      stopped := fun hstopped => by rw [hsessions]; exact hphase hstopped
      link_lt := ?_
      link_inj := fun hx hy => by rw [hlookup] at hx hy; exact h.link_inj hx hy
      owner_lt := ?_
      tidy := ?_ }
  · intro i x hget
    rw [hlookup] at hget
    exact Nat.lt_of_lt_of_le (h.link_lt hget) hspares.size_le
  · intro id standing owner hstanding howner
    refine Nat.lt_of_lt_of_le ?_ hspares.size_le
    by_cases hlink : link = some owner
    · exact (hfree hlink).1
    · exact h.owner_lt (hspares.standing?_eq hstanding howner hlink) howner
  · intro i x hget
    rw [hlookup] at hget
    exact (h.tidy hget).spares hspares (fun hlink => (hfree hlink).2 hget rfl) (h.link_lt hget)

/-- Nothing happens that the books or the realms depend on. -/
theorem Kept.same (h : server.Kept) {after : Server σ}
    (hsettings : after.settings = server.settings) (hsessions : after.sessions = server.sessions)
    (hphase : after.phase = .stopped → server.sessions = [])
    (hexchanges : after.service.exchanges = server.service.exchanges)
    (hsteady : server.service.hub.Steady after.service.hub) : after.Kept :=
  h.aside hsettings hsessions hphase hexchanges (hsteady.spares none) nofun

private theorem get?_accept (server : Server σ) (peer : Endpoint) (capacity : Nat)
    (isReading : Bool) (j : Nat) :
    (server.service.accept peer capacity isReading).get? j =
      if j = server.service.exchanges.size then
        some ⟨(Connection.create peer capacity server.service.hub).1, Peer.create isReading⟩
      else server.service.get? j := by
  show (server.service.exchanges.push _)[j]? = _
  rw [Array.getElem?_push]
  rfl

/-- A connection is taken on. -/
theorem Kept.accept (h : server.Kept) (peer : Endpoint) (capacity : Nat) (isReading : Bool)
    (hserving : server.phase = .serving)
    (hroom : server.sessions.length < server.settings.maxConnections) :
    ({ server with
      service := server.service.accept peer capacity isReading
      sessions := server.sessions ++ [server.service.exchanges.size] } : Server σ).Kept := by
  have hlookup := server.get?_accept peer capacity isReading
  have hsize : (server.service.accept peer capacity isReading).hub.links.all.size =
      server.service.hub.links.all.size + 1 := Array.size_push _
  have hcount : (server.service.accept peer capacity isReading).exchanges.size =
      server.service.exchanges.size + 1 := Array.size_push _
  have hspares := server.service.hub.spares_lend peer none
  have hcases : ∀ {j z}, (server.service.accept peer capacity isReading).get? j = some z →
      (j = server.service.exchanges.size ∧
        z.connection.session.link = server.service.hub.links.all.size ∧
        z.connection.hasEnded = false) ∨
      server.service.get? j = some z := by
    intro j z hz
    rw [hlookup] at hz
    by_cases hj : j = server.service.exchanges.size
    · rw [if_pos hj] at hz
      cases hz
      exact Or.inl ⟨hj, rfl, rfl⟩
    · rw [if_neg hj] at hz
      exact Or.inr hz
  refine
    { length_le := ?_
      nodup := ?_
      mem_lt := ?_
      ended := ?_
      stopped := fun hstopped => ?_
      link_lt := ?_
      link_inj := ?_
      owner_lt := ?_
      tidy := ?_ }
  · show (server.sessions ++ [_]).length ≤ server.settings.maxConnections
    rw [List.length_append, List.length_singleton]
    omega
  · refine List.nodup_append.mpr ⟨h.nodup, List.pairwise_singleton _ _, ?_⟩
    intro i hi j hj heq
    have hlt := h.mem_lt i hi
    rw [heq, List.mem_singleton.mp hj] at hlt
    exact Nat.lt_irrefl _ hlt
  · intro i hi
    show i < (server.service.accept peer capacity isReading).exchanges.size
    rw [hcount]
    rcases List.mem_append.mp hi with hold | hnew
    · exact Nat.lt_succ_of_lt (h.mem_lt i hold)
    · rw [List.mem_singleton.mp hnew]
      exact Nat.lt_succ_self _
  · intro i x hget hnot
    rcases hcases hget with ⟨rfl, -⟩ | hold
    · exact absurd (List.mem_append_right _ (List.mem_singleton_self _)) hnot
    · exact h.ended hold fun hmem => hnot (List.mem_append_left _ hmem)
  · exact absurd (hstopped.symm.trans hserving) nofun
  · intro i x hget
    show x.connection.session.link <
      (server.service.accept peer capacity isReading).hub.links.all.size
    rw [hsize]
    rcases hcases hget with ⟨-, hlink, -⟩ | hold
    · rw [hlink]
      exact Nat.lt_succ_self _
    · exact Nat.lt_succ_of_lt (h.link_lt hold)
  · intro i j x y hx hy hlink
    rcases hcases hx with ⟨hi, hxlink, -⟩ | hxold
    · rcases hcases hy with ⟨hj, -⟩ | hyold
      · rw [hi, hj]
      · have hlt := h.link_lt hyold
        rw [← hlink, hxlink] at hlt
        exact absurd hlt (Nat.lt_irrefl _)
    · rcases hcases hy with ⟨-, hylink, -⟩ | hyold
      · have hlt := h.link_lt hxold
        rw [hlink, hylink] at hlt
        exact absurd hlt (Nat.lt_irrefl _)
      · exact h.link_inj hxold hyold hlink
  · intro id standing link hstanding howner
    exact Nat.lt_of_lt_of_le (h.owner_lt hstanding howner) hspares.size_le
  · intro i x hget
    rcases hcases hget with ⟨-, hlink, hopen⟩ | hold
    · refine ⟨?_, fun hended => ?_, fun hended => ?_⟩
      · intro id standing hstanding howner
        have hlt := h.owner_lt hstanding howner
        rw [hlink] at hlt
        exact absurd hlt (Nat.lt_irrefl _)
      · exact absurd (hopen.symm.trans hended) nofun
      · exact absurd (hopen.symm.trans hended) nofun
    · exact (h.tidy hold).spares hspares nofun (h.link_lt hold)

/-- A connection that is accepted is entered in the books. -/
theorem Kept.take (h : server.Kept) (peer : Endpoint) (capacity : Nat) (isReading : Bool) :
    (server.take peer capacity isReading).Kept := by
  have hnoted : ∀ notice, (server.note notice).Kept :=
    fun notice => h.same rfl rfl h.stopped rfl ⟨rfl, fun _ => rfl⟩
  unfold Server.take
  split
  · exact h
  split
  · exact hnoted _
  · next hserving hroom =>
    exact (hnoted _).accept peer capacity isReading (not_not.mp hserving) (Nat.not_le.mp hroom)

theorem Kept.arm (h : server.Kept) (i : Nat) :
    (server.having (server.service.openConnection i)).Kept := by
  unfold Service.openConnection
  cases hget : server.service.get? i with
  | none => exact h
  | some x =>
    dsimp only
    split
    · exact h
    · next hopen =>
      have hstays : x.connection.hasEnded = false := by simp_all
      let armed := x.connection.arm server.service.now server.service.hub
      show (server.put i { x with connection := armed.1 } armed.2).Kept
      exact h.put hget
        (x.connection.serves_open armed.1 rfl rfl rfl hstays hstays ⟨rfl, fun _ => rfl⟩)

theorem Kept.join (h : server.Kept) (i : Nat) : (server.join i).Kept := by
  unfold Server.join
  split
  · next hended =>
    exact
      { length_le := Nat.le_trans (List.length_erase_le) h.length_le
        nodup := h.nodup.erase i
        mem_lt := fun j hj => h.mem_lt j (List.mem_of_mem_erase hj)
        ended := by
          intro j x hget hnot
          by_cases hj : j = i
          · subst hj
            unfold hasEnded at hended
            rw [show server.service.get? j = some x from hget] at hended
            exact hended
          · exact h.ended hget fun hmem => hnot ((List.mem_erase_of_ne hj).mpr hmem)
        stopped := fun hstopped => by simp [h.stopped hstopped]
        link_lt := h.link_lt
        link_inj := h.link_inj
        owner_lt := h.owner_lt
        tidy := h.tidy }
  · exact h

theorem Kept.stop (h : server.Kept) : server.stop.Kept := by
  unfold Server.stop
  split
  · next hdrained => exact h.same rfl rfl (fun _ => hdrained.2) rfl ⟨rfl, fun _ => rfl⟩
  · exact h

variable [Transport σ]

/-- Every step keeps the books. -/
theorem Kept.step (h : server.Kept) (step : ServerStep σ) : (server.step step).Kept := by
  cases step with
  | arrive peer capacity isReading => exact h.take peer capacity isReading
  | arm i => exact h.arm i
  | cancel i =>
    exact h.onConnection fun c hub => c.serves_aside c.cancel rfl rfl ⟨rfl, fun _ => rfl⟩
  | event i event => exact h.onConnection fun c hub => c.serves_handle event _ hub
  | fault i reason => exact h.onConnection fun c hub => c.serves_breakDown reason hub
  | mark i state hstate => exact h.onConnection fun c hub => c.serves_mark hstate hub
  | far i inbound outbound peer =>
    unfold Server.step onExchange
    dsimp only
    cases hget : server.service.get? i with
    | none => exact h
    | some x =>
      exact h.put hget (x.connection.serves_aside { x.connection with inbound, outbound } rfl rfl
        ⟨rfl, fun _ => rfl⟩)
  | wait time => exact h.same rfl rfl h.stopped rfl ⟨rfl, fun _ => rfl⟩
  | harvest =>
    exact h.same rfl rfl h.stopped rfl (Hub.steady_harvestRound _)
  | call op hop =>
    unfold Server.step
    dsimp only
    split
    · exact h
    · next hfree =>
      refine h.aside rfl rfl h.stopped rfl (Hub.spares_run _ hop) ?_
      intro other hlink
      rw [hlink] at hfree
      simpa using hfree
  | lend peer => exact h.aside rfl rfl h.stopped rfl (Hub.spares_lend _ peer none) nofun
  | retire link state hstate =>
    unfold Server.step
    dsimp only
    split
    · exact h
    · next hfree =>
      refine h.aside rfl rfl h.stopped rfl (Hub.spares_setState _ link hstate) ?_
      rintro other ⟨⟩
      simpa using hfree
  | aside transport notices harvestAt => exact h.same rfl rfl h.stopped rfl ⟨rfl, fun _ => rfl⟩
  | signal => exact h.same rfl rfl h.stopped rfl ⟨rfl, fun _ => rfl⟩
  | join i => exact h.join i
  | drain =>
    show server.drain.Kept
    unfold Server.drain
    split
    · exact h.same rfl rfl nofun rfl ⟨rfl, fun _ => rfl⟩
    · exact h
  | stop => exact h.stop

theorem Kept.run (h : server.Kept) (steps : List (ServerStep σ)) : (server.run steps).Kept := by
  induction steps generalizing server with
  | nil => exact h
  | cons step steps ih => exact ih (h.step step)

/-- The operations of a server are made of steps. -/
theorem Kept.reaches (h : server.Kept) {after : Server σ} (hreaches : server.Reaches after) :
    after.Kept := by
  obtain ⟨steps, rfl⟩ := hreaches
  exact h.run steps

/-! ## Who is served -/

/-- Who the sessions were started for, in order. -/
def peers (server : Server σ) : List Endpoint :=
  server.service.exchanges.toList.map (·.connection.session.peer)

omit [Transport σ] in
private theorem peers_put (hget : server.service.get? i = some x) {y : Exchange} (hub : Hub σ)
    (hpeer : y.connection.session.peer = x.connection.session.peer) :
    (server.put i y hub).peers = server.peers := by
  obtain ⟨hlt, rfl⟩ := Array.getElem?_eq_some_iff.mp hget
  have hsame : (server.service.exchanges[i]).connection.session.peer =
      server.peers.get ⟨i, by simpa [peers] using hlt⟩ := by simp [peers]
  unfold Server.put
  show (server.service.exchanges.setIfInBounds i y).toList.map _ = server.peers
  rw [Array.toList_setIfInBounds, List.map_set, hpeer, hsame]
  exact List.set_getElem_self (by simpa [peers] using hlt)

omit [Transport σ] in
private theorem roll_onConnection (server : Server σ) (i : Nat)
    {act : Connection → Hub σ → Connection × Hub σ}
    (hact : ∀ c hub, Connection.Serves c hub (act c hub)) :
    (server.onConnection i act).peers = server.peers ∧
      (server.onConnection i act).settings = server.settings := by
  unfold Server.onConnection onExchange
  cases hget : server.service.get? i with
  | none => exact ⟨rfl, rfl⟩
  | some x => exact ⟨peers_put hget _ (hact x.connection server.service.hub).peer_eq, rfl⟩

omit [Transport σ] in
private theorem roll_take (server : Server σ) (peer : Endpoint) (capacity : Nat)
    (isReading : Bool) : (server.take peer capacity isReading).peers =
        server.peers ++ (if server.hasRoom then [peer] else []) ∧
      (server.take peer capacity isReading).settings = server.settings := by
  unfold take hasRoom
  by_cases hserving : server.phase = .serving
  · by_cases hroom : server.settings.maxConnections ≤ server.sessions.length
    · simp [hserving, hroom, peers, note]
    · simp [hserving, hroom, peers, note, Service.accept, Connection.create, Session.start]
  · simp [hserving]

/-- A session is started for each connection that is taken on, and for no other. -/
theorem roll_step (server : Server σ) (step : ServerStep σ) :
    (server.step step).peers = server.peers ++ server.admitted step ∧
      (server.step step).settings = server.settings := by
  have hkept : ∀ {after : Server σ}, after.peers = server.peers ∧
      after.settings = server.settings →
      after.peers = server.peers ++ [] ∧ after.settings = server.settings := by
    intro after h
    rwa [List.append_nil]
  cases step with
  | arrive peer capacity isReading => exact server.roll_take peer capacity isReading
  | arm i =>
    refine hkept ?_
    unfold Server.step Service.openConnection
    dsimp only
    cases hget : server.service.get? i with
    | none => exact ⟨rfl, rfl⟩
    | some x =>
      dsimp only
      split
      · exact ⟨rfl, rfl⟩
      · exact ⟨peers_put hget _ rfl, rfl⟩
  | cancel i =>
    exact hkept (server.roll_onConnection i fun c hub =>
      c.serves_aside c.cancel rfl rfl ⟨rfl, fun _ => rfl⟩)
  | event i event =>
    exact hkept (server.roll_onConnection i fun c hub => c.serves_handle event _ hub)
  | fault i reason =>
    exact hkept (server.roll_onConnection i fun c hub => c.serves_breakDown reason hub)
  | mark i state hstate =>
    exact hkept (server.roll_onConnection i fun c hub => c.serves_mark hstate hub)
  | far i inbound outbound peer =>
    refine hkept ?_
    unfold Server.step onExchange
    dsimp only
    cases hget : server.service.get? i with
    | none => exact ⟨rfl, rfl⟩
    | some x => exact ⟨peers_put hget _ rfl, rfl⟩
  | call op hop =>
    refine hkept ?_
    unfold Server.step
    dsimp only
    split <;> exact ⟨rfl, rfl⟩
  | join i =>
    refine hkept ?_
    show (server.join i).peers = _ ∧ (server.join i).settings = _
    unfold Server.join
    split <;> exact ⟨rfl, rfl⟩
  | drain =>
    refine hkept ?_
    show server.drain.peers = _ ∧ server.drain.settings = _
    unfold Server.drain
    split <;> exact ⟨rfl, rfl⟩
  | stop =>
    refine hkept ?_
    show server.stop.peers = _ ∧ server.stop.settings = _
    unfold Server.stop
    split <;> exact ⟨rfl, rfl⟩
  | wait time => exact hkept ⟨rfl, rfl⟩
  | harvest => exact hkept ⟨rfl, rfl⟩
  | lend peer => exact hkept ⟨rfl, rfl⟩
  | retire link state hstate =>
    refine hkept ?_
    unfold Server.step
    dsimp only
    split <;> exact ⟨rfl, rfl⟩
  | aside transport notices harvestAt => exact hkept ⟨rfl, rfl⟩
  | signal => exact hkept ⟨rfl, rfl⟩

/-- The connections that were ever accepted are those that the steps took, in their order. -/
theorem roll_run (server : Server σ) (steps : List (ServerStep σ)) :
    (server.run steps).peers = server.peers ++ server.taken steps ∧
      (server.run steps).settings = server.settings := by
  induction steps generalizing server with
  | nil => exact ⟨(List.append_nil _).symm, rfl⟩
  | cons step steps ih =>
    obtain ⟨hpeers, hsettings⟩ := server.roll_step step
    obtain ⟨hrest, hkept⟩ := ih (server.step step)
    refine ⟨?_, hkept.trans hsettings⟩
    show ((server.step step).run steps).peers =
      server.peers ++ (server.admitted step ++ (server.step step).taken steps)
    rw [hrest, hpeers, List.append_assoc]

/-! ## What the books say -/

/-- The sessions that are open. -/
def openSessions (server : Server σ) : List Nat :=
  (List.range server.service.exchanges.size).filter fun i =>
    (server.service.get? i).any (!·.connection.hasEnded)

/-- The books of a server with these settings that took these connections on. -/
structure Balanced (server : Server σ) (settings : Settings) (taken : List Endpoint) : Prop where
  /-- No more sessions are open than the settings allow. -/
  bounded : server.openSessions.length ≤ settings.maxConnections
  /-- A session was started for each connection that was taken on, and for no other. -/
  started : server.peers = taken
  /-- A connection that is turned away leaves nothing but a notice. -/
  refused : server.hasRoom = false → ∀ peer capacity isReading, ∃ notices,
    server.accept peer capacity isReading = { server with service.hub.notices := notices } ∧
    server.step (.arrive peer capacity isReading) = { server with service.hub.notices := notices }
  /-- A session that was joined has ended. -/
  joined : ∀ {i x}, server.service.get? i = some x → i ∉ server.sessions →
    x.connection.hasEnded = true
  /-- A session that has ended was closed, and the realms that it owns are offline. -/
  closed : ∀ {i x}, server.service.get? i = some x → x.connection.hasEnded = true →
    x.connection.session.state.timers = none ∧
    server.service.hub.links.isLive x.connection.session.link = false ∧
    ∀ {id record}, server.service.hub.realms.find? id = some record →
      record.isOwnedBy x.connection.session.link = true → record.info.flags.isOffline = true
  /-- When the server stops, every session has ended. -/
  stopped : server.phase = .stopped → ∀ {i x}, server.service.get? i = some x →
    x.connection.hasEnded = true

omit [Transport σ] in
private theorem Kept.length_openSessions_le (h : server.Kept) :
    server.openSessions.length ≤ server.settings.maxConnections := by
  have hsubset : server.openSessions ⊆ server.sessions := by
    intro i hmem
    obtain ⟨-, hopen⟩ := List.mem_filter.mp hmem
    cases hget : server.service.get? i with
    | none => simp [hget] at hopen
    | some x =>
      by_contra hnot
      simp [hget, h.ended hget hnot] at hopen
  have hnodup : server.openSessions.Nodup := List.nodup_range.filter _
  exact Nat.le_trans (List.subperm_of_subset hnodup hsubset).length_le h.length_le

/-- A connection that comes when there is no room is turned away. -/
theorem turnedAway_of_hasRoom_eq_false (server : Server σ) (hroom : server.hasRoom = false)
    (peer : Endpoint) (capacity : Nat) (isReading : Bool) : ∃ notices,
      server.accept peer capacity isReading = { server with service.hub.notices := notices } ∧
      server.step (.arrive peer capacity isReading) =
        { server with service.hub.notices := notices } := by
  show ∃ notices, _ ∧ server.take peer capacity isReading = _
  unfold accept take
  unfold hasRoom at hroom
  by_cases hserving : server.phase = .serving
  · have hfull : server.settings.maxConnections ≤ server.sessions.length := by
      simpa [hserving] using hroom
    rw [if_neg (not_not.mpr hserving), if_pos hfull, if_neg (not_not.mpr hserving), if_pos hfull]
    exact ⟨_, rfl, rfl⟩
  · rw [if_pos hserving, if_pos hserving]
    exact ⟨server.service.hub.notices, rfl, rfl⟩

/-- Books that are kept balance. -/
theorem Kept.balanced (h : server.Kept) : server.Balanced server.settings server.peers where
  bounded := h.length_openSessions_le
  started := rfl
  refused := server.turnedAway_of_hasRoom_eq_false
  joined := h.ended
  closed := by
    intro i x hget hended
    have htidy := h.tidy hget
    refine ⟨htidy.stopped hended, htidy.closed hended, ?_⟩
    intro id record hfind howned
    have hstanding : server.service.hub.realms.standing? id = some record.standing := by
      rw [RealmTable.standing?, hfind, Option.map_some]
    have hoffline := (htidy.owned hstanding (beq_iff_eq.mp howned)).2 hended
    simpa [RealmRecord.standing, RealmRecord.isOnline] using hoffline
  stopped := by
    intro hstopped i x hget
    exact h.ended hget (by simp [h.stopped hstopped])

/-- In whatever order connections come in and end, sessions are joined, and the signal is given. -/
theorem balanced_run (settings : Settings) (listener : Endpoint) (adminListener : Option Endpoint)
    (transport : σ) (steps : List (ServerStep σ)) :
    let server := create settings listener adminListener transport
    (server.run steps).Balanced settings (server.taken steps) := by
  intro server
  have hkept := ((kept_create settings listener adminListener transport).run steps).balanced
  obtain ⟨hpeers, hsettings⟩ := server.roll_run steps
  rwa [hpeers, hsettings] at hkept

/-- There is room for one connection. Its session registers a realm, the next connection is turned
away, and then the server is told to stop. -/
def lastVisit : List (ServerStep Mailboxes) :=
  let registration : Registration :=
    ⟨7, "Realm 7", 8085, 200, 50, .player, ⟨0⟩, .normal, .english, []⟩
  let envelope : Envelope := ⟨.registeringRequest, registration.encode.toOption.getD []⟩
  let pipe := (Pipe.create 64).push (envelope.encode.toOption.getD [])
  [.arrive ⟨.v4 10 0 0 5, 41000, 0⟩ 64 true, .arm 0, .arrive ⟨.v4 10 0 0 6, 41000, 0⟩ 64 true,
    .far 0 pipe.2 (Pipe.create 64) (Peer.create true), .event 0 .read, .signal, .cancel 0, .drain,
    .stop, .event 0 .shutdown, .join 0, .stop]

example :
    let server := create { Settings.default with maxConnections := 1 } ⟨.v4 10 0 0 1, 8085, 0⟩ none
      Mailboxes.empty
    let visited (count : Nat) := server.run (lastVisit.take count)
    let offline (count : Nat) :=
      ((visited count).service.hub.realms.find? 7).map (·.info.flags.isOffline)
    (visited 8).openSessions = [0] ∧ offline 8 = some false ∧ (visited 9).phase = .draining ∧
      (visited 12).phase = .stopped ∧ offline 12 = some true ∧
      server.taken lastVisit = [⟨.v4 10 0 0 5, 41000, 0⟩] := by decide +kernel

end Server

end RealmDirectory
