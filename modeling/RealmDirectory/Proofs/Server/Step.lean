import RealmDirectory.Proofs.Connection.Tidy
import RealmDirectory.Server

/-!
# A server step by step

A `ServerStep` is one thing that happens to a server: a connection comes in, is torn down or joined,
the signal to stop is given or noticed; or something happens to one connection, at its far end or
around it. A list of them is one order in which all that can happen.

The operations of a server and of the service in it let happen whatever is due at once, in an order
of their own. Each of them is some list of steps, so what holds after all lists holds of them, too.

## Main definitions

* `Server.step`, `Server.run`
* `Server.Reaches` — some list of steps leads there.

## Main results

* `Server.reaches_accept`, `Server.reaches_signal`, `Server.reaches_shutdown`
* `Server.reaches_settle`, `Server.reaches_write`, `Server.reaches_sleepUntil`
-/

namespace RealmDirectory

variable {σ : Type}

/-- One thing that happens to a server. -/
inductive ServerStep (σ : Type) where
  /-- A connection comes in. -/
  | arrive (peer : Endpoint) (capacity : Nat) (isReading : Bool)
  /-- The timers of a connection are started. -/
  | arm (i : Nat)
  /-- A connection is asked to end. -/
  | cancel (i : Nat)
  /-- An event is made to happen on a connection, whether or not it is due. -/
  | event (i : Nat) (event : Event)
  /-- What carries the bytes of a connection breaks. -/
  | fault (i : Nat) (reason : String)
  /-- The link of a connection is closed, or nobody holds it any more. -/
  | mark (i : Nat) (state : LinkState) (h : state ≠ .live)
  /-- The far end of a connection, and what is in its pipes, change in any way at all. -/
  | far (i : Nat) (inbound outbound : Pipe) (peer : Peer)
  | wait (time : Instant)
  | harvest
  /-- Somebody calls the hub, but not to mark a realm, and not under the link of a connection. -/
  | call (op : Operation) (h : op.isMark = false)
  /-- Somebody else is given a link. -/
  | lend (peer : Endpoint)
  /-- A link that is not that of a connection is closed, or nobody holds it any more. -/
  | retire (link : LinkId) (state : LinkState) (h : state ≠ .live)
  /-- What no session looks at changes in any way at all. -/
  | aside (transport : σ) (notices : List Notice) (harvestAt : Option Instant)
  | signal
  | join (i : Nat)
  | drain
  | stop

namespace Server

/-- A connection would be taken on. -/
def hasRoom (server : Server σ) : Bool :=
  server.phase = .serving && server.sessions.length < server.settings.maxConnections

/-- The link is that of a connection, or it is not known. -/
def isReserved (server : Server σ) (link : LinkId) : Bool :=
  server.service.hub.links.all.size ≤ link ||
    server.service.exchanges.any (·.connection.session.link == link)

/-- The connection at a place, and the hub, are replaced. -/
def put (server : Server σ) (i : Nat) (x : Exchange) (hub : Hub σ) : Server σ :=
  { server with
    service := { server.service with
      hub
      exchanges := server.service.exchanges.setIfInBounds i x } }

/-- Something happens on one connection, if it is there. -/
def onExchange (server : Server σ) (i : Nat) (act : Exchange → Hub σ → Exchange × Hub σ) :
    Server σ :=
  match server.service.get? i with
  | none => server
  | some x =>
    let (x, hub) := act x server.service.hub
    server.put i x hub

/-- Something happens to the near end of a connection. -/
def onConnection (server : Server σ) (i : Nat)
    (act : Connection → Hub σ → Connection × Hub σ) : Server σ :=
  server.onExchange i fun x hub =>
    ({ x with connection := (act x.connection hub).1 }, (act x.connection hub).2)

/-- Deals with a connection that comes in; its timers do not run yet. -/
def take (server : Server σ) (peer : Endpoint) (capacity : Nat) (isReading : Bool) : Server σ :=
  if server.phase ≠ .serving then server
  else if server.settings.maxConnections ≤ server.sessions.length then
    server.note (.turnedAway peer server.sessions.length)
  else
    let server := server.note (.accepted peer)
    { server with
      service := server.service.accept peer capacity isReading
      sessions := server.sessions ++ [server.service.exchanges.size] }

variable [Transport σ]

/-- The server after a step. -/
def step (server : Server σ) : ServerStep σ → Server σ
  | .arrive peer capacity isReading => server.take peer capacity isReading
  | .arm i => { server with service := server.service.openConnection i }
  | .cancel i => server.onConnection i fun c hub => (c.cancel, hub)
  | .event i event => server.onConnection i fun c hub => c.handle event server.service.now hub
  | .fault i reason => server.onConnection i fun c hub => c.breakDown reason hub
  | .mark i state _ =>
    server.onConnection i fun c hub =>
      (c, { hub with links := hub.links.setState c.session.link state })
  | .far i inbound outbound peer =>
    server.onExchange i fun x hub => (⟨{ x.connection with inbound, outbound }, peer⟩, hub)
  | .wait time => { server with service.now := time }
  | .harvest => { server with service.hub := server.service.hub.harvestRound }
  | .call op _ =>
    if op.link?.any server.isReserved then server
    else { server with service.hub := op.run server.service.hub }
  | .lend peer => { server with service.hub.links := (server.service.hub.links.add peer).2 }
  | .retire link state _ =>
    if server.isReserved link then server
    else { server with service.hub.links := server.service.hub.links.setState link state }
  | .aside transport notices harvestAt =>
    { server with
      service.hub.transport := transport
      service.hub.notices := notices
      service.harvestAt := harvestAt }
  | .signal => { server with isSignalled := true }
  | .join i => server.join i
  | .drain => server.drain
  | .stop => server.stop

/-- The server after a list of steps. -/
def run (server : Server σ) (steps : List (ServerStep σ)) : Server σ := steps.foldl step server

/-- Who is taken on in a step. -/
def admitted (server : Server σ) : ServerStep σ → List Endpoint
  | .arrive peer _ _ => if server.hasRoom then [peer] else []
  | _ => []

/-- Who is taken on in the course of a list of steps. -/
def taken (server : Server σ) : List (ServerStep σ) → List Endpoint
  | [] => []
  | step :: rest => server.admitted step ++ (server.step step).taken rest

/-- Some list of steps leads from one server to the other. -/
def Reaches (server after : Server σ) : Prop := ∃ steps, after = server.run steps

theorem Reaches.refl (server : Server σ) : server.Reaches server := ⟨[], rfl⟩

theorem Reaches.trans {server between after : Server σ} (hfirst : server.Reaches between)
    (hnext : between.Reaches after) : server.Reaches after := by
  obtain ⟨first, rfl⟩ := hfirst
  obtain ⟨next, rfl⟩ := hnext
  exact ⟨first ++ next, (List.foldl_append).symm⟩

private theorem reaches_step (server : Server σ) (step : ServerStep σ) :
    server.Reaches (server.step step) := ⟨[step], rfl⟩

/-! ## What is due on one connection -/

section Put

variable {server : Server σ} {i : Nat} {x : Exchange}

omit [Transport σ] in
private theorem lt_of_get? (hget : server.service.get? i = some x) :
    i < server.service.exchanges.size := (Array.getElem?_eq_some_iff.mp hget).1

omit [Transport σ] in
theorem get?_put (hget : server.service.get? i = some x) (y : Exchange) (hub : Hub σ) (j : Nat) :
    (server.put i y hub).service.get? j = if j = i then some y else server.service.get? j := by
  show (server.service.exchanges.setIfInBounds i y)[j]? = _
  rw [Array.getElem?_setIfInBounds]
  by_cases h : i = j
  · rw [if_pos h, if_pos h.symm, if_pos (lt_of_get? hget)]
  · rw [if_neg h, if_neg (Ne.symm h)]
    rfl

omit [Transport σ] in
private theorem put_put (server : Server σ) (i : Nat) (x y : Exchange) (hub other : Hub σ) :
    (server.put i x hub).put i y other = server.put i y other := by
  have hset : (server.service.exchanges.setIfInBounds i x).setIfInBounds i y =
      server.service.exchanges.setIfInBounds i y := Array.setIfInBounds_setIfInBounds _
  unfold put
  dsimp only
  rw [hset]

omit [Transport σ] in
theorem put_self (hget : server.service.get? i = some x) :
    server.put i x server.service.hub = server := by
  obtain ⟨hlt, heq⟩ := Array.getElem?_eq_some_iff.mp hget
  have hsame : server.service.exchanges.setIfInBounds i x = server.service.exchanges := by
    rw [← heq]
    simp [Array.setIfInBounds, hlt]
  unfold put
  rw [hsame]

/-- Something more happens on a connection. -/
theorem Reaches.onExchange {y : Exchange} {hub : Hub σ}
    (h : server.Reaches (server.put i y hub)) (hget : server.service.get? i = some x)
    (step : ServerStep σ) (act : Exchange → Hub σ → Exchange × Hub σ)
    (hstep : (server.put i y hub).step step = (server.put i y hub).onExchange i act) :
    server.Reaches (server.put i (act y hub).1 (act y hub).2) := by
  have hthere : (server.put i y hub).service.get? i = some y :=
    (get?_put hget y hub i).trans (if_pos rfl)
  have hnext := (server.put i y hub).reaches_step step
  rw [hstep] at hnext
  unfold Server.onExchange at hnext
  rw [hthere] at hnext
  dsimp only at hnext
  rw [put_put] at hnext
  exact h.trans hnext

/-- A due event of a connection is a step of the server. -/
theorem Reaches.event {y : Exchange} {hub : Hub σ} (h : server.Reaches (server.put i y hub))
    (hget : server.service.get? i = some x) (event : Event) :
    let handled := y.connection.handle event server.service.now hub
    server.Reaches (server.put i { y with connection := handled.1 } handled.2) :=
  h.onExchange hget (.event i event) (fun y hub =>
    let handled := y.connection.handle event server.service.now hub
    ({ y with connection := handled.1 }, handled.2)) rfl

/-- What a far end does to its pipes is a step of the server. -/
theorem Reaches.far {y : Exchange} {hub : Hub σ} (h : server.Reaches (server.put i y hub))
    (hget : server.service.get? i = some x) (inbound outbound : Pipe) (peer : Peer) :
    server.Reaches (server.put i ⟨{ y.connection with inbound, outbound }, peer⟩ hub) :=
  h.onExchange hget (.far i inbound outbound peer)
    (fun y hub => (⟨{ y.connection with inbound, outbound }, peer⟩, hub)) rfl

end Put

section Settle

variable {server : Server σ} {i : Nat} {x : Exchange} (hget : server.service.get? i = some x)

include hget

/-- The events that are due on a connection. -/
theorem Reaches.advance {y : Exchange} {hub : Hub σ} (h : server.Reaches (server.put i y hub))
    (count : Nat) :
    let settled := y.connection.advance server.service.now count hub
    server.Reaches (server.put i { y with connection := settled.1 } settled.2) := by
  induction count generalizing y hub with
  | zero => exact h
  | succ count ih =>
    unfold Connection.advance
    cases hdue : y.connection.due server.service.now with
    | nil => exact h
    | cons event rest =>
      exact ih (h.event hget event)

/-- The connection does what is due and the peer reads, by turns. -/
theorem Reaches.alternate {y : Exchange} {hub : Hub σ} (h : server.Reaches (server.put i y hub))
    (rounds : Nat) :
    let settled := Exchange.alternate server.service.now rounds y hub
    server.Reaches (server.put i settled.1 settled.2) := by
  induction rounds generalizing y hub with
  | zero => exact h
  | succ rounds ih =>
    have hsettled := h.advance hget y.connection.work
    have hdrained := hsettled.far hget
      (y.connection.settle server.service.now hub).1.inbound
      (y.peer.drain (y.connection.settle server.service.now hub).1.outbound
        server.service.now).2
      (y.peer.drain (y.connection.settle server.service.now hub).1.outbound
        server.service.now).1
    unfold Exchange.alternate
    dsimp only
    split
    · exact hdrained
    · exact ih hdrained

/-- Letting a connection settle is a number of such events. -/
theorem Reaches.settle {y : Exchange} {hub : Hub σ} (h : server.Reaches (server.put i y hub)) :
    let settled := y.settle server.service.now hub
    server.Reaches (server.put i settled.1 settled.2) := h.alternate hget _

/-- The peer writes, and whatever is due happens after each piece. -/
theorem Reaches.writeFrom {y : Exchange} {hub : Hub σ} (h : server.Reaches (server.put i y hub))
    (written : Nat) (bytes : List UInt8) :
    let result := y.writeFrom written bytes server.service.now hub
    server.Reaches (server.put i result.2.1 result.2.2) := by
  fun_induction Exchange.writeFrom y written bytes server.service.now hub with
  | case1 => exact h
  | case2 => exact h
  | case3 y written bytes hub _ _ rest inbound _ next later hsettle _ ih =>
    have hnext := (h.far hget inbound y.connection.outbound y.peer).settle hget
    dsimp only at hnext
    rw [hsettle] at hnext
    exact ih hnext
  | case4 y written bytes hub _ _ rest inbound _ next later hsettle _ =>
    have hnext := (h.far hget inbound y.connection.outbound y.peer).settle hget
    dsimp only at hnext
    rw [hsettle] at hnext
    exact hnext

end Settle

/-! ## The operations of the service -/

/-- The server with another state of its service. -/
def having (server : Server σ) (service : Service σ) : Server σ := { server with service }

private theorem reaches_settleAt (server : Server σ) (i : Nat) :
    server.Reaches (server.having (server.service.settleAt i)) := by
  unfold Service.settleAt
  cases hget : server.service.get? i with
  | none => exact .refl server
  | some x =>
    have hself : server.Reaches (server.put i x server.service.hub) := by
      rw [put_self hget]
      exact .refl server
    exact hself.settle hget

private theorem reaches_settleHarvest (server : Server σ) :
    server.Reaches (server.having server.service.settleHarvest) := by
  unfold Service.settleHarvest
  cases server.service.harvestAt with
  | none => exact .refl server
  | some time =>
    dsimp only
    split
    · exact .refl server
    · let hub := server.service.hub.harvestRound
      let harvestAt := server.service.now + harvestInterval
      exact ⟨[.harvest, .aside hub.transport hub.notices (some harvestAt)], rfl⟩

/-- Letting everything settle is a number of steps. -/
theorem reaches_settle (server : Server σ) :
    server.Reaches (server.having server.service.settle) := by
  have hall : ∀ (places : List Nat) (server : Server σ),
      server.Reaches (server.having (places.foldl Service.settleAt server.service)) := by
    intro places
    induction places with
    | nil => exact Reaches.refl
    | cons i places ih =>
      intro server
      exact (server.reaches_settleAt i).trans (ih _)
  exact (hall (List.range server.service.exchanges.size) server).trans (reaches_settleHarvest _)

private theorem reaches_tick (server : Server σ) (time : Instant) :
    server.Reaches (server.having (server.service.tick time)) :=
  ((server.reaches_step (.wait time)).trans (reaches_settle _)).trans (reaches_step _ (.wait time))

/-- Sleeping is waiting from timer to timer, and settling in between. -/
theorem reaches_sleepUntil (server : Server σ) (target : Instant) :
    server.Reaches (server.having (server.service.sleepUntil target)) := by
  generalize hservice : server.service = service
  fun_induction Service.sleepUntil service target generalizing server with
  | case1 service hnext =>
    subst hservice
    exact server.reaches_tick target
  | case2 service time hnext hbetween ih =>
    subst hservice
    exact (server.reaches_tick time).trans (ih (server.having (server.service.tick time)) rfl)
  | case3 service time hnext hbetween =>
    subst hservice
    exact server.reaches_tick target

/-- A peer writes. -/
theorem reaches_write (server : Server σ) {i : Nat} {bytes : List UInt8} {outcome : WriteOutcome}
    {service : Service σ} (h : server.service.write i bytes = some (outcome, service)) :
    server.Reaches (server.having service) := by
  obtain ⟨x, hget, heq⟩ := Option.map_eq_some_iff.mp h
  have hself : server.Reaches (server.put i x server.service.hub) := by
    rw [put_self hget]
    exact .refl server
  unfold Exchange.write at heq
  by_cases hgone : x.peer.hasHungUp = true
  · rw [if_pos hgone] at heq
    cases heq
    exact hself.trans (reaches_settle _)
  · rw [if_neg hgone] at heq
    cases heq
    exact (hself.writeFrom hget 0 bytes).trans (reaches_settle _)

omit [Transport σ] in
private theorem having_modify (server : Server σ) (i : Nat) (change : Exchange → Exchange) :
    server.having (server.service.modify i change) =
      server.onExchange i fun x hub => (change x, hub) := by
  unfold having Service.modify onExchange
  cases hget : server.service.get? i with
  | none =>
    have hmodify : server.service.exchanges.modify i change = server.service.exchanges := by
      apply Array.ext_getElem?
      intro j
      rw [Array.getElem?_modify]
      by_cases h : i = j
      · rw [if_pos h, ← h, show server.service.exchanges[i]? = none from hget]
        rfl
      · rw [if_neg h]
    rw [hmodify]
  | some x =>
    have hmodify : server.service.exchanges.modify i change =
        server.service.exchanges.setIfInBounds i (change x) := by
      apply Array.ext_getElem?
      intro j
      rw [Array.getElem?_modify, Array.getElem?_setIfInBounds]
      by_cases h : i = j
      · rw [if_pos h, if_pos h, if_pos (lt_of_get? hget), ← h,
          show server.service.exchanges[i]? = some x from hget]
        rfl
      · rw [if_neg h, if_neg h]
    rw [hmodify]
    rfl

/-- A connection is asked to end. -/
theorem reaches_cancel (server : Server σ) (i : Nat) :
    server.Reaches (server.having (server.service.cancel i)) := by
  have hcancel := server.reaches_step (.cancel i)
  rw [show server.step (.cancel i) = _ from (server.having_modify i _).symm] at hcancel
  exact hcancel.trans (reaches_settle _)

/-- A far end shuts its writing side down, or hangs up. -/
theorem reaches_far (server : Server σ) (i : Nat) {change : Exchange → Exchange}
    (hchange : change = Exchange.shutInbound ∨ change = Exchange.hangUp) :
    server.Reaches (server.having (server.service.modify i change)) := by
  rw [having_modify]
  cases hget : server.service.get? i with
  | none =>
    unfold onExchange
    rw [hget]
    exact .refl server
  | some x =>
    have hself : server.Reaches (server.put i x server.service.hub) := by
      rw [put_self hget]
      exact .refl server
    unfold onExchange
    rw [hget]
    rcases hchange with rfl | rfl
    · exact hself.far hget x.connection.inbound.close x.connection.outbound x.peer
    · exact hself.far hget x.connection.inbound.close x.connection.outbound.close
        { x.peer with hasHungUp := true }

theorem reaches_startHarvester (server : Server σ) :
    server.Reaches (server.having server.service.startHarvester) :=
  (server.reaches_step (.aside server.service.hub.transport server.service.hub.notices
    (some server.service.now))).trans (reaches_settle _)

private theorem reaches_stopHarvester (server : Server σ) :
    server.Reaches (server.having server.service.stopHarvester) := by
  unfold Service.stopHarvester
  cases server.service.harvestAt with
  | none => exact .refl server
  | some time =>
    let hub := server.service.hub.note .harvesterStopped
    exact ⟨[.aside hub.transport hub.notices none], rfl⟩

/-! ## The operations of the server -/

/-- A connection that was taken on is asked to end if the signal was given, and then its timers are
started. -/
theorem reaches_opened (server : Server σ) (i : Nat) :
    let service := if server.isSignalled then server.service.cancel i else server.service
    server.Reaches (server.having (service.openConnection i).settle) := by
  have hasked : server.Reaches (server.having
      (if server.isSignalled then server.service.cancel i else server.service)) := by
    split
    · exact server.reaches_cancel i
    · exact .refl server
  exact (hasked.trans (reaches_step _ (.arm i))).trans (reaches_settle _)

/-- Accepting a connection is a step, and then settling. -/
theorem reaches_accept (server : Server σ) (peer : Endpoint) (capacity : Nat) (isReading : Bool) :
    server.Reaches (server.accept peer capacity isReading) := by
  have htaken : server.Reaches (server.take peer capacity isReading) :=
    server.reaches_step (.arrive peer capacity isReading)
  unfold accept
  unfold take at htaken
  by_cases hserving : server.phase ≠ .serving
  · rw [if_pos hserving]
    exact .refl server
  · rw [if_neg hserving] at htaken ⊢
    by_cases hfull : server.settings.maxConnections ≤ server.sessions.length
    · rw [if_pos hfull] at htaken ⊢
      exact htaken
    · rw [if_neg hfull] at htaken ⊢
      exact htaken.trans (reaches_opened _ server.service.exchanges.size)

/-- A signal cancels every session and stops the harvester. -/
theorem reaches_signal (server : Server σ) : server.Reaches server.signal := by
  have hall : ∀ (places : List Nat) (server : Server σ),
      server.Reaches (server.having
        (places.foldl (fun service i => service.cancel i) server.service)) := by
    intro places
    induction places with
    | nil => exact Reaches.refl
    | cons i places ih =>
      intro server
      exact (server.reaches_cancel i).trans (ih _)
  exact ((hall server.sessions server).trans (reaches_stopHarvester _)).trans
    (reaches_step _ .signal)

/-- Shutting down is a signal, noticed, and a join of every session. -/
theorem reaches_shutdown (server : Server σ) : server.Reaches server.shutdown := by
  have hjoin : ∀ (places : List Nat) (server : Server σ),
      server.Reaches (places.foldl (fun server i => server.join i) server) := by
    intro places
    induction places with
    | nil => exact Reaches.refl
    | cons i places ih =>
      intro server
      exact (server.reaches_step (.join i)).trans (ih _)
  have hdrained := server.reaches_signal.trans (reaches_step _ .drain)
  exact (hdrained.trans (hjoin _ _)).trans (reaches_step _ .stop)

end Server

end RealmDirectory
