import RealmDirectory.Proofs.Hub.Interleaving

/-!
# What is on its way, and since when

No two messages are made at the same move, and no session is sent two lists: the errands and the
arrivals together are a ledger in which a mark stands once (`Relay.marks`). A move leaves the marks
alone, passes one on, or adds one that is new (`Relay.Changes.nodup_marks`).

Along with that goes what the stamps mean. A message describes the table that there was after the
move at which it was made, and sinks take messages one after another. A session is looked up
after the slot was claimed for it, since its number is new when the slot is claimed.

## Main definitions

* `Relay.Made` — a message and the table that it describes.
* `Relay.Sound` — the invariant.

## Main results

* `Relay.sound_start`, `Relay.Sound.step` — it holds from the start on.
-/

namespace RealmDirectory

variable {σ : Type}

/-! ## Marks that are used once -/

section Ledger

variable {α β : Type} (mark : α → Option β)

private theorem perm_filterMap_set (l : List α) {place : Nat} (hlt : place < l.length) (next : α) :
    ((l.set place next).filterMap mark).Perm
      ((mark next).toList ++ (l.eraseIdx place).filterMap mark) := by
  induction l generalizing place with
  | nil => cases hlt
  | cons a l ih =>
    cases place with
    | zero => cases hmark : mark next <;> simp [hmark]
    | succ place =>
      have hrest := ih (Nat.lt_of_succ_lt_succ hlt)
      rw [List.set_cons_succ, List.eraseIdx_cons_succ, List.filterMap_cons, List.filterMap_cons]
      cases mark a with
      | none => exact hrest
      | some b => exact (hrest.cons b).trans List.perm_middle.symm

/-- An item that is replaced takes its mark away or leaves it to its successor, which may otherwise
have a fresh one. -/
theorem nodup_filterMap_set {l : List α} {others : List β}
    (h : (l.filterMap mark ++ others).Nodup) {place : Nat} {old next : α}
    (hget : l[place]? = some old)
    (hmark : mark next = none ∨ mark next = mark old ∨
      mark old = none ∧ ∀ b, mark next = some b → b ∉ l.filterMap mark ++ others) :
    ((l.set place next).filterMap mark ++ others).Nodup := by
  obtain ⟨hlt, rfl⟩ := List.getElem?_eq_some_iff.mp hget
  have hold := (perm_filterMap_set mark l hlt l[place]).append_right others
  rw [List.set_getElem_self] at hold
  have hnext := (perm_filterMap_set mark l hlt next).append_right others
  rw [hold.nodup_iff] at h
  rw [hnext.nodup_iff]
  rcases hmark with hnone | hsame | ⟨hnone, hfresh⟩
  · rw [hnone]
    exact h.sublist ((List.sublist_append_right _ _).append_right others)
  · rwa [hsame]
  · rw [hnone] at h hold
    cases hmark : mark next with
    | none => exact h
    | some b => exact List.nodup_cons.mpr ⟨fun hmem => hfresh b hmark (hold.mem_iff.mpr hmem), h⟩

/-- An item whose mark goes to the others. -/
theorem nodup_filterMap_move {l : List α} {others : List β}
    (h : (l.filterMap mark ++ others).Nodup) {place : Nat} {old next : α}
    (hget : l[place]? = some old) (hmark : mark next = none) :
    ((l.set place next).filterMap mark ++ (others ++ (mark old).toList)).Nodup := by
  obtain ⟨hlt, rfl⟩ := List.getElem?_eq_some_iff.mp hget
  have hold := (perm_filterMap_set mark l hlt l[place]).append_right others
  rw [List.set_getElem_self] at hold
  have hnext := (perm_filterMap_set mark l hlt next).append_right
    (others ++ (mark l[place]).toList)
  rw [hnext.nodup_iff, hmark, Option.toList_none, List.nil_append, ← List.append_assoc,
    List.perm_append_comm.nodup_iff, ← List.append_assoc]
  exact hold.nodup_iff.mp h

private theorem nodup_filterMap_append {l : List α} {others : List β}
    (h : (l.filterMap mark ++ others).Nodup) {new : α}
    (hmark : ∀ b, mark new = some b → b ∉ l.filterMap mark ++ others) :
    ((l ++ [new]).filterMap mark ++ others).Nodup := by
  rw [List.filterMap_append, List.append_assoc]
  cases hnew : mark new with
  | none => simpa [hnew] using h
  | some b =>
    have hcons : (b :: (l.filterMap mark ++ others)).Nodup :=
      List.nodup_cons.mpr ⟨hmark b hnew, h⟩
    have hperm : (l.filterMap mark ++ ([new].filterMap mark ++ others)).Perm
        (b :: (l.filterMap mark ++ others)) := by simp [hnew]
    exact hperm.nodup_iff.mpr hcons

end Ledger

namespace Errand

/-- The move at which the message of the errand was made. -/
def made? : Errand → Option Nat
  | announcing _ made => some made
  | sending letter => some letter.made
  | _ => none

/-- The session whose list the errand takes or has. -/
def listed? : Errand → Option Nat
  | listing session _ => some session.id
  | sending letter => if letter.message.isList then some letter.session.id else none
  | _ => none

end Errand

namespace Relay

/-- The marks of all errands and of all that has arrived. -/
def marks (relay : Relay σ) (mark : Errand → Option Nat) : List Nat :=
  relay.errands.filterMap mark ++ relay.arrivals.filterMap (mark <| .sending ·.toLetter)

variable {relay after : Relay σ}

/-- No mark is used twice if the errands that are new have fresh ones. -/
theorem Changes.nodup_marks (h : relay.Changes after) {mark : Errand → Option Nat}
    (hnodup : (relay.marks mark).Nodup)
    (hspent : ∀ errand, errand.isSpent = true → mark errand = none)
    (hbegun : ∀ told b, mark (.announcing told relay.now) = some b → b ∉ relay.marks mark)
    (hclaimed : ∀ {session}, session.id = relay.hub.slot.nextId →
      ∀ b, mark (.listing session relay.now) = some b → b ∉ relay.marks mark)
    (haddressed : ∀ told made session,
      mark (.sending ⟨session, .announcement told, made, relay.now⟩) =
        mark (.announcing told made))
    (hlisted : ∀ session claimed realms,
      mark (.sending ⟨session, .list realms, relay.now, claimed⟩) =
        mark (.listing session claimed) ∨
      mark (.listing session claimed) = none ∧
        ∀ b, mark (.sending ⟨session, .list realms, relay.now, claimed⟩) = some b →
          b ∉ relay.marks mark) :
    (after.marks mark).Nodup := by
  unfold marks at *
  cases h with
  | aside _ _ herrands harrivals _ => rwa [herrands, harrivals]
  | @begun told _ herrands harrivals _ =>
    rw [herrands, harrivals]
    cases told with
    | none => simpa using hnodup
    | some told => exact nodup_filterMap_append mark hnodup (hbegun told)
  | claimed _ hid _ _ herrands harrivals _ =>
    rw [herrands, harrivals]
    exact nodup_filterMap_append mark hnodup (hclaimed hid)
  | ended hget _ hnext _ _ herrands harrivals _ _ =>
    rw [herrands, harrivals]
    exact nodup_filterMap_set mark hnodup hget (Or.inl (hspent _ hnext))
  | addressed hget _ _ herrands harrivals _ =>
    rw [herrands, harrivals]
    exact nodup_filterMap_set mark hnodup hget (Or.inr (Or.inl (haddressed _ _ _)))
  | listed hget _ herrands harrivals _ =>
    rw [herrands, harrivals]
    exact nodup_filterMap_set mark hnodup hget (Or.inr (hlisted _ _ _))
  | @arrived place letter bytes hget _ _ _ herrands harrivals _ =>
    rw [herrands, harrivals, List.filterMap_append]
    have hmove := nodup_filterMap_move mark hnodup hget (hspent .done rfl)
    have hlast : [(⟨letter, relay.now, bytes⟩ : Arrival)].filterMap (mark <| .sending ·.toLetter) =
        (mark (.sending letter)).toList := by cases hmark : mark (.sending letter) <;> simp [hmark]
    rwa [hlast]

/-! ## The invariant -/

/-- The message describes the table that there was after the move at which it was made. -/
def Made (relay : Relay σ) (message : Message) (made : Nat) : Prop :=
  ∃ table, relay.tables[made]? = some table ∧ message.Describes table

/-- The table of every move is kept. -/
def Ticks (relay after : Relay σ) : Prop :=
  after.tables = relay.tables ++ [after.hub.realms]

/-- What was made was made at an earlier move. -/
theorem Made.lt {message : Message} {made : Nat} (h : relay.Made message made) :
    made < relay.now := by
  obtain ⟨table, htable, -⟩ := h
  exact (List.getElem?_eq_some_iff.mp htable).1

/-- The clock counts the moves. -/
theorem Ticks.now_eq (h : relay.Ticks after) : after.now = relay.now + 1 := by
  unfold now
  rw [h, List.length_append, List.length_singleton]

theorem Ticks.made (h : relay.Ticks after) {message : Message} {made : Nat}
    (hmade : relay.Made message made) : after.Made message made := by
  obtain ⟨table, htable, hdescribes⟩ := hmade
  refine ⟨table, ?_, hdescribes⟩
  rw [h, List.getElem?_append_left (List.getElem?_eq_some_iff.mp htable).1]
  exact htable

/-- What describes the latest table was made at the latest move. -/
theorem Ticks.made_now (h : relay.Ticks after) {message : Message}
    (hdescribes : message.Describes after.hub.realms) : after.Made message relay.now := by
  refine ⟨after.hub.realms, ?_, hdescribes⟩
  rw [h]
  exact List.getElem?_concat_length

/-- A login claimed the slot for the session at the given move. -/
def Opens (relay : Relay σ) (session : AdminSession) (claimed : Nat) : Prop :=
  .listing session claimed ∈ relay.errands ∨ ∃ letter, relay.HasLetter letter ∧
    letter.message.isList = true ∧ letter.session = session ∧ letter.fetched = claimed

/-- What is on its way was made before, and whoever it is for was seated before. -/
structure Sound (relay : Relay σ) : Prop where
  announcing : ∀ {told made}, .announcing told made ∈ relay.errands →
    relay.Made (.announcement told) made
  listing : ∀ {session claimed}, .listing session claimed ∈ relay.errands →
    claimed < relay.now ∧ session.id < relay.hub.slot.nextId
  seated : ∀ {session}, relay.hub.slot.current = some session →
    session.id < relay.hub.slot.nextId
  made : ∀ {letter}, relay.HasLetter letter → relay.Made letter.message letter.made
  fetched : ∀ {letter}, relay.HasLetter letter →
    letter.fetched < relay.now ∧ letter.session.id < relay.hub.slot.nextId
  /-- Nobody looks a session up before the slot is claimed for it. -/
  opened : ∀ {session claimed}, relay.Opens session claimed → ∀ {letter}, relay.HasLetter letter →
    letter.message.isList = false → letter.session = session → claimed < letter.fetched
  arrived : ∀ arrival ∈ relay.arrivals, arrival.message.bytes = .ok arrival.bytes ∧
    arrival.made < arrival.sent ∧ arrival.fetched < arrival.sent ∧ arrival.sent < relay.now
  sent_lt : relay.arrivals.Pairwise (·.sent < ·.sent)
  made_nodup : (relay.marks Errand.made?).Nodup
  listed_nodup : (relay.marks Errand.listed?).Nodup

private theorem Changes.nextId_le (h : relay.Changes after) :
    relay.hub.slot.nextId ≤ after.hub.slot.nextId := by
  rcases h.slot with (heq | heq) | ⟨-, session, -, heq⟩
  · rw [heq]
  · rw [heq]
  · rw [heq]
    exact Nat.le_succ _

private theorem not_hasLetter_start (transport : σ) (letter : Letter) :
    ¬(start transport).HasLetter letter := by
  rintro (hmem | ⟨arrival, hmem, -⟩)
  · cases hmem
  · cases hmem

/-- Before the first move nothing is on its way. -/
theorem sound_start (transport : σ) : (start transport).Sound where
  announcing hmem := absurd hmem List.not_mem_nil
  listing hmem := absurd hmem List.not_mem_nil
  seated := nofun
  made hletter := absurd hletter (not_hasLetter_start transport _)
  fetched hletter := absurd hletter (not_hasLetter_start transport _)
  opened _ _ hletter := absurd hletter (not_hasLetter_start transport _)
  arrived := List.forall_mem_nil _
  sent_lt := List.Pairwise.nil
  made_nodup := List.nodup_nil
  listed_nodup := List.nodup_nil

namespace Sound

/-- A letter and a claim are no younger than the latest move. -/
theorem opens_lt (h : relay.Sound) {session : AdminSession} {claimed : Nat}
    (hopens : relay.Opens session claimed) :
    claimed < relay.now ∧ session.id < relay.hub.slot.nextId := by
  rcases hopens with hlisting | ⟨letter, hletter, -, rfl, rfl⟩
  · exact h.listing hlisting
  · exact h.fetched hletter

private theorem lt_of_mem_made (h : relay.Sound) {made : Nat}
    (hmem : made ∈ relay.marks Errand.made?) : made < relay.now := by
  rcases List.mem_append.mp hmem with hpending | harrived
  · obtain ⟨errand, herrand, hmade⟩ := List.mem_filterMap.mp hpending
    cases errand with
    | announcing told time =>
      cases hmade
      exact (h.announcing herrand).lt
    | sending letter =>
      cases hmade
      exact (h.made (Or.inl herrand)).lt
    | listing session claimed => cases hmade
    | failing session cause => cases hmade
    | done => cases hmade
  · obtain ⟨arrival, harrival, hmade⟩ := List.mem_filterMap.mp harrived
    cases hmade
    exact (h.made (Or.inr ⟨arrival, harrival, rfl⟩)).lt

private theorem lt_of_mem_listed (h : relay.Sound) {id : Nat}
    (hmem : id ∈ relay.marks Errand.listed?) : id < relay.hub.slot.nextId := by
  have hletter : ∀ {letter : Letter}, relay.HasLetter letter →
      Errand.listed? (.sending letter) = some id → id < relay.hub.slot.nextId := by
    intro letter hletter hlisted
    unfold Errand.listed? at hlisted
    dsimp only at hlisted
    split at hlisted
    · cases hlisted
      exact (h.fetched hletter).2
    · cases hlisted
  rcases List.mem_append.mp hmem with hpending | harrived
  · obtain ⟨errand, herrand, hlisted⟩ := List.mem_filterMap.mp hpending
    cases errand with
    | listing session claimed =>
      cases hlisted
      exact (h.listing herrand).2
    | sending letter => exact hletter (Or.inl herrand) hlisted
    | announcing told made => cases hlisted
    | failing session cause => cases hlisted
    | done => cases hlisted
  · obtain ⟨arrival, harrival, hlisted⟩ := List.mem_filterMap.mp harrived
    exact hletter (Or.inr ⟨arrival, harrival, rfl⟩) hlisted

private theorem opened_step (h : relay.Sound) (hchanges : relay.Changes after)
    {session : AdminSession} {claimed : Nat} (hopens : after.Opens session claimed)
    {letter : Letter} (hletter : after.HasLetter letter) (hlist : letter.message.isList = false)
    (hsession : letter.session = session) : claimed < letter.fetched := by
  -- The session was opened before, or it is new and has the next number.
  have hopened : relay.Opens session claimed ∨ session.id = relay.hub.slot.nextId := by
    rcases hopens with hlisting | ⟨list, hhas, hislist, rfl, rfl⟩
    · rcases hchanges.errand hlisting with hold | hspent | hnew
      · exact Or.inl (Or.inl hold)
      · cases hspent
      · cases hnew with
        | listing hid _ => exact Or.inr hid
    · rcases hchanges.hasLetter hhas with hold | hnew
      · exact Or.inl (Or.inr ⟨list, hold, hislist, rfl, rfl⟩)
      · cases hnew with
        | addressed _ _ => cases hislist
        | listed hmem _ => exact Or.inl (Or.inl hmem)
  rcases hchanges.hasLetter hletter with hold | hnew
  · rcases hopened with hopened | hid
    · exact h.opened hopened hold hlist hsession
    · have hlt := (h.fetched hold).2
      rw [hsession, hid] at hlt
      exact absurd hlt (Nat.lt_irrefl _)
  · cases hnew with
    | addressed _ hcurrent =>
      rcases hopened with hopened | hid
      · exact (h.opens_lt hopened).1
      · have hlt := h.seated hcurrent
        have hnew := (congrArg AdminSession.id hsession).trans hid
        dsimp only at hnew
        omega
    | listed _ _ => cases hlist

private theorem arrived_step (h : relay.Sound) (hchanges : relay.Changes after)
    (hticks : relay.Ticks after) :
    (∀ arrival ∈ after.arrivals, arrival.message.bytes = .ok arrival.bytes ∧
      arrival.made < arrival.sent ∧ arrival.fetched < arrival.sent ∧ arrival.sent < after.now) ∧
    after.arrivals.Pairwise (·.sent < ·.sent) := by
  have hnow := hticks.now_eq
  rcases hchanges.arrivals with heq | ⟨letter, bytes, hsending, hbytes, heq⟩
  · rw [heq]
    refine ⟨fun arrival hmem => ?_, h.sent_lt⟩
    obtain ⟨hwritten, hmade, hfetched, hsent⟩ := h.arrived arrival hmem
    exact ⟨hwritten, hmade, hfetched, by omega⟩
  · rw [heq]
    have hmade := (h.made (Or.inl hsending)).lt
    have hfetched := (h.fetched (Or.inl hsending)).1
    constructor
    · intro arrival hmem
      rcases List.mem_append.mp hmem with hold | hnew
      · obtain ⟨hwritten, hmade, hfetched, hsent⟩ := h.arrived arrival hold
        exact ⟨hwritten, hmade, hfetched, by omega⟩
      · obtain rfl := List.mem_singleton.mp hnew
        exact ⟨hbytes, hmade, hfetched, by show relay.now < after.now; omega⟩
    · refine List.pairwise_append.mpr ⟨h.sent_lt, List.pairwise_singleton _ _, ?_⟩
      intro arrival hold last hlast
      obtain rfl := List.mem_singleton.mp hlast
      exact (h.arrived arrival hold).2.2.2

/-- A move gives its own stamp to whatever it makes or sends. -/
theorem step (h : relay.Sound) (hchanges : relay.Changes after) (hticks : relay.Ticks after) :
    after.Sound := by
  have hnow := hticks.now_eq
  have hnext := hchanges.nextId_le
  obtain ⟨harrived, hsent⟩ := h.arrived_step hchanges hticks
  refine
    { announcing := ?_
      listing := ?_
      seated := ?_
      made := ?_
      fetched := ?_
      opened := h.opened_step hchanges
      arrived := harrived
      sent_lt := hsent
      made_nodup := ?_
      listed_nodup := ?_ }
  · intro told made hmem
    rcases hchanges.errand hmem with hold | hspent | hnew
    · exact hticks.made (h.announcing hold)
    · cases hspent
    · cases hnew with
      | announcing hdescribes => exact hticks.made_now hdescribes
  · intro session claimed hmem
    rcases hchanges.errand hmem with hold | hspent | hnew
    · obtain ⟨hclaimed, hid⟩ := h.listing hold
      exact ⟨by omega, by omega⟩
    · cases hspent
    · cases hnew with
      | listing hid hslot => exact ⟨by omega, by omega⟩
  · intro session hcurrent
    rcases hchanges.slot with (heq | heq) | ⟨-, seated, hid, heq⟩
    · rw [heq] at hcurrent
      have hlt := h.seated hcurrent
      omega
    · rw [heq] at hcurrent
      cases hcurrent
    · rw [heq] at hcurrent ⊢
      cases hcurrent
      rw [hid]
      exact Nat.lt_succ_self _
  · intro letter hletter
    rcases hchanges.hasLetter hletter with hold | hnew
    · exact hticks.made (h.made hold)
    · cases hnew with
      | addressed hmem _ => exact hticks.made (h.announcing hmem)
      | listed _ hrealms => exact hticks.made_now (congrArg RealmTable.snapshots hrealms.symm)
  · intro letter hletter
    rcases hchanges.hasLetter hletter with hold | hnew
    · obtain ⟨hfetched, hid⟩ := h.fetched hold
      exact ⟨by omega, by omega⟩
    · cases hnew with
      | addressed _ hcurrent =>
        have hid := h.seated hcurrent
        exact ⟨by show relay.now < after.now; omega, Nat.lt_of_lt_of_le hid hnext⟩
      | listed hmem _ =>
        obtain ⟨hclaimed, hid⟩ := h.listing hmem
        exact ⟨Nat.lt_of_lt_of_le hclaimed (by omega), Nat.lt_of_lt_of_le hid hnext⟩
  · refine hchanges.nodup_marks h.made_nodup ?_ ?_ ?_ ?_ ?_
    · intro errand hspent
      cases errand <;> first | rfl | cases hspent
    · rintro told b ⟨⟩ hmem
      exact absurd (h.lt_of_mem_made hmem) (Nat.lt_irrefl _)
    · intro session hid b hmade
      cases hmade
    · exact fun _ _ _ => rfl
    · refine fun session claimed realms => Or.inr ⟨rfl, ?_⟩
      rintro b ⟨⟩ hmem
      exact absurd (h.lt_of_mem_made hmem) (Nat.lt_irrefl _)
  · refine hchanges.nodup_marks h.listed_nodup ?_ ?_ ?_ ?_ ?_
    · intro errand hspent
      cases errand <;> first | rfl | cases hspent
    · intro told b hlisted
      cases hlisted
    · rintro session hid b ⟨⟩ hmem
      have hlt := h.lt_of_mem_listed hmem
      omega
    · exact fun _ _ _ => rfl
    · exact fun session claimed realms => Or.inl rfl

end Sound

end Relay

end RealmDirectory
