import XofConformance.Proofs.Actor.Orderly
import XofConformance.Proofs.Actor.Wire

/-!
# Late replies

A switchboard whose actor stays alive and answers every request once, in whatever order and after
whatever delay. A request that its caller has given up does not wait any more, but the actor still
answers it, and such a reply names a request that is not known: it is the death of the link. So the
link outlives a request that was not answered in time if and only if the reply to it is never heard.

    a reply that is heard is its own request's answer, or late, and then the link dies
                                                                              (Proper.hear)
    the link lasts if and only if no late reply was heard                  (Reached.fate)
-/

namespace XofConformance.Actor

/-- The request was written. -/
def Stand.hasWritten : Stand → Bool
  | .written | .late | .expired | .told _ => true
  | _ => false

/-! ## Requests that were given up -/

namespace Switchboard

variable {t t' : Switchboard} {n : Nat} {why : ActorFault}

/-- The time of the request has run out before its reply was heard. -/
def Lapsed (n : Nat) (t : Switchboard) : Prop :=
  t.stand n = .expired ∧ n ∉ t.given.map Prod.fst

/-- A request that was written stays so. -/
theorem hasWritten_step (hstep : CallerStep t t') (hk : t.Kept)
    (hn : (t.stand n).hasWritten = true) : (t'.stand n).hasWritten = true := by
  have hput : ∀ {id : Nat} {s : Stand} {t₀ : Switchboard}, t₀.stand = t.stand →
      (s.hasWritten = true ∨ (t.stand id).hasWritten = false) →
      ((t₀.put id s).stand n).hasWritten = true := by
    intro id s t₀ hstand hs
    by_cases he : n = id
    · subst he
      rw [stand_put]
      exact hs.resolve_right (by rw [hn]; decide)
    · rw [stand_put_of_ne he, hstand]
      exact hn
  cases hstep with
  | enter =>
    have hfresh : t.stand t.link.take.1 = .absent := hk.fresh (Nat.lt_succ_self _)
    exact hput rfl (Or.inr (by rw [hfresh]; rfl))
  | register hs _ | refuse hs _ | fail hs | withdraw hs =>
    exact hput rfl (Or.inr (by rw [hs]; rfl))
  | write | wake | timeOut | expire => exact hput rfl (Or.inl rfl)

/-- A request was written before, unless it is written now. -/
theorem hasWritten_of_step (hstep : CallerStep t t')
    (hwrites : ∀ id, t'.stand id = .written → t.stand id = .written)
    (hn : (t'.stand n).hasWritten = true) : (t.stand n).hasWritten = true := by
  have hput : ∀ {id : Nat} {s : Stand} {t₀ : Switchboard}, t₀.stand = t.stand →
      ((t₀.put id s).stand n).hasWritten = true →
      (s.hasWritten = true → (t.stand id).hasWritten = true) →
      (t.stand n).hasWritten = true := by
    intro id s t₀ hstand hn hs
    by_cases he : n = id
    · subst he
      rw [stand_put] at hn
      exact hs hn
    · rwa [stand_put_of_ne he, hstand] at hn
  cases hstep with
  | enter | register | refuse | fail | withdraw => exact hput rfl hn nofun
  | @write id hs =>
    have hbefore := hwrites id stand_put
    rw [hs] at hbefore
    cases hbefore
  | wake hs _ | timeOut hs _ | expire hs => exact hput rfl hn fun _ => by rw [hs]; rfl

/-- A request that was written, does not wait and has no answer is given up. -/
theorem Kept.lapsed (hk : t.Kept) (hn : (t.stand n).hasWritten = true)
    (hwait : n ∉ t.link.waiting) (hnone : n ∉ t.given.map Prod.fst) : t.Lapsed n := by
  have hclosed : (t.stand n).isOpen ≠ true := fun hopen => hwait (hk.waiting.2 ⟨hopen, hnone⟩)
  refine ⟨?_, hnone⟩
  cases hs : t.stand n with
  | expired => rfl
  | told a =>
    have hgiven : (n, a) ∈ t.given := List.mem_append_left _ (hk.told hs)
    exact absurd (List.mem_map.2 ⟨_, hgiven, rfl⟩) hnone
  | written | late =>
    rw [hs] at hclosed
    exact absurd rfl hclosed
  | _ =>
    rw [hs] at hn
    cases hn

/-- A request that was given up is given no answer any more. -/
theorem Lapsed.step (h : t.Lapsed n) (hk : t.Kept) (hstep : Step t t') : t'.Lapsed n := by
  obtain ⟨hexpired, hnone⟩ := h
  have hup : (t.stand n).isGivenUp = true := by rw [hexpired]; rfl
  refine ⟨(hk.stand_step hup hstep).trans hexpired, ?_⟩
  cases hstep with
  | caller hc =>
    obtain ⟨id, l, s, rfl, -⟩ := hk.exists_moves hc
    exact hnone
  | listener hl =>
    obtain ⟨as, ht⟩ := hk.exists_takes hl
    exact hk.not_given_of_takes ht hup hnone

/-- A caller changes neither what the listener does nor what was given. -/
theorem Kept.caller_given (hk : t.Kept) (hstep : CallerStep t t') :
    t'.listener = t.listener ∧ t'.given = t.given := by
  obtain ⟨id, l, s, rfl, -⟩ := hk.exists_moves hstep
  exact ⟨rfl, rfl⟩

/-- What a listener gives that has met the death of the link are failures. -/
theorem Falls.given_step {ids : List Nat} (h : t.Falls why ids) (hk : t.Kept)
    (hstep : ListenerStep t t') :
    ∃ failed : List Nat, t'.given = t.given ++ failed.map fun n => (n, .error why) := by
  rcases h.listener with hdoomed | ⟨hdead, hidle⟩
  · rw [eq_of_doomed hdoomed hstep]
    exact ⟨t.link.waiting, (hk.takes_all hdoomed).given⟩
  · cases hstep with
    | hear hl | deafen hl | hangUp hl | deliver hl | die hl =>
      rw [hl] at hidle
      cases hidle
    | @fail why' id rest hl =>
      refine ⟨[], ?_⟩
      rw [given_eq hl]
      simp [given, Listener.due]
    | stop hl =>
      refine ⟨[], ?_⟩
      rw [given_eq hl]
      simp [given, Listener.due]

end Switchboard

/-! ## An actor that answers every request -/

/-- A switchboard with an actor that stays alive. -/
structure Correspondence where
  board : Switchboard := {}
  /-- The requests that the actor has received and not answered. -/
  inbox : List Nat := []
  /-- Its replies that are on their way, with the requests that they answer. -/
  outbox : List (Nat × Text) := []
  /-- The replies that were heard. -/
  heard : List (Nat × Text) := []

namespace Correspondence

open Switchboard (Lapsed)

/-- What can happen next. The actor answers any of the requests that it has received, once; the
listener hears its replies in the order in which they were written. -/
inductive Step : Correspondence → Correspondence → Prop
  | write {s : Correspondence} {n : Nat} : s.board.stand n = .registered →
    Step s { s with board := s.board.put n .written, inbox := s.inbox ++ [n] }
  /-- A caller does anything else. -/
  | caller {s : Correspondence} {b : Switchboard} : Switchboard.CallerStep s.board b →
    (∀ n, b.stand n = .written → s.board.stand n = .written) → Step s { s with board := b }
  | answer {s : Correspondence} {n : Nat} {line : Text} {before after : List Nat} :
    s.inbox = before ++ n :: after → RepliesTo n line →
    Step s { s with inbox := before ++ after, outbox := s.outbox ++ [(n, line)] }
  | hear {s : Correspondence} {n : Nat} {line : Text} {rest : List (Nat × Text)} :
    s.board.listener = .ready → s.outbox = (n, line) :: rest →
    Step s { s with
      board := s.board.hear line
      outbox := rest
      heard := s.heard ++ [(n, line)] }
  /-- The listener goes on with what it has in hand. -/
  | listener {s : Correspondence} {b : Switchboard} : s.board.listener ≠ .ready →
    Switchboard.ListenerStep s.board b → Step s { s with board := b }

/-- The second correspondence can come about after the first. -/
def Later : Correspondence → Correspondence → Prop := Relation.ReflTransGen Step

/-- The correspondence can come about over a new link. -/
def Reached (s : Correspondence) : Prop := Later {} s

/-- The requests that the actor has received, answered or not. -/
def received (s : Correspondence) : List Nat :=
  s.inbox ++ s.outbox.map Prod.fst ++ s.heard.map Prod.fst

/-- A reply as the answer to its own request. -/
def own (r : Nat × Text) : Nat × Answer := (r.1, answerIn r.2)

/-- The listener has not met the death of the link. -/
def Lasts (s : Correspondence) : Prop :=
  s.board.listener = .ready ∨ ∃ id a, s.board.listener = .delivering id a

variable {s s' : Correspondence} {n : Nat} {line : Text} {why : ActorFault}

/-- What happens is a step of the switchboard, or does not touch it. -/
theorem Step.board (hstep : Step s s') :
    s'.board = s.board ∨ Switchboard.Step s.board s'.board := by
  cases hstep with
  | write hs => exact Or.inr (.caller (.write hs))
  | caller hc _ => exact Or.inr (.caller hc)
  | answer _ _ => exact Or.inl rfl
  | hear hready _ => exact Or.inr (.listener (.hear hready))
  | listener _ hl => exact Or.inr (.listener hl)

theorem Later.board (hlater : Later s s') : Switchboard.Later s.board s'.board := by
  induction hlater with
  | refl => exact .refl
  | tail _ hstep ih =>
    rcases hstep.board with he | hstep
    · rw [he]
      exact ih
    · exact ih.tail hstep

/-! ## What every step keeps -/

/-- The link lasts: what was given are the answers that were heard, each to its own request. -/
structure Serves (s : Correspondence) : Prop where
  lasts : s.Lasts
  given : s.board.given = s.heard.map own

/-- The reply that was heard last was late, and the link falls with it. What was given before are
the answers that were heard, and all that is given since is the failure. -/
structure Falls (before : List (Nat × Text)) (n : Nat) (line : Text) (why : ActorFault)
    (s : Correspondence) : Prop where
  heard : s.heard = before ++ [(n, line)]
  lapsed : s.board.Lapsed n
  names : ∃ reply, Json.read (Text.strip line) = .ok reply ∧ why = .unknownId (reply.field "id")
  board : s.board.Falls why []
  given : ∃ failed : List Nat,
    s.board.given = before.map own ++ failed.map fun id => (id, .error why)

/-- What is known of every correspondence. -/
structure Proper (s : Correspondence) : Prop where
  kept : s.board.Kept
  once : s.received.Nodup
  written {n : Nat} : n ∈ s.received ↔ (s.board.stand n).hasWritten = true
  truthful {r : Nat × Text} : r ∈ s.outbox → RepliesTo r.1 r.2
  course : s.Serves ∨ ∃ before n line why, s.Falls before n line why

theorem proper_empty : Proper {} where
  kept := Switchboard.kept_empty
  once := List.nodup_nil
  written := iff_of_false List.not_mem_nil nofun
  truthful h := nomatch h
  course := Or.inl ⟨Or.inl rfl, rfl⟩

theorem received_answer (line : Text) {before after : List Nat}
    (hin : s.inbox = before ++ n :: after) :
    (Correspondence.received
      { s with inbox := before ++ after, outbox := s.outbox ++ [(n, line)] }).Perm s.received := by
  unfold received
  rw [hin, List.map_append, List.perm_iff_count]
  intro id
  simp only [List.count_append, List.count_cons, List.map_cons, List.map_nil, List.count_nil]
  omega

theorem received_hear {b : Switchboard} {rest : List (Nat × Text)}
    (hout : s.outbox = (n, line) :: rest) :
    (Correspondence.received
      { s with board := b, outbox := rest, heard := s.heard ++ [(n, line)] }).Perm s.received := by
  unfold received
  rw [hout, List.map_append, List.perm_iff_count]
  intro id
  simp only [List.count_append, List.count_cons, List.map_cons, List.map_nil, List.count_nil]
  omega

/-- A listener that is ready has met no death of the link. -/
theorem Proper.serves_of_ready (h : s.Proper) (hready : s.board.listener = .ready) :
    s.Serves := by
  refine h.course.resolve_right ?_
  rintro ⟨before, n, line, why, hfalls⟩
  rcases hfalls.board.listener with hdoomed | ⟨-, hidle⟩
  · rw [hready] at hdoomed
    cases hdoomed
  · rw [hready] at hidle
    cases hidle

/-- The next reply is the answer to its own request, which waits for it, or it is late; and then it
names a request that is not known. -/
theorem Proper.next (h : s.Proper) (hready : s.board.listener = .ready)
    {rest : List (Nat × Text)} (hout : s.outbox = (n, line) :: rest) :
    (n ∈ s.board.link.waiting ∧ s.board.link.notice line = .answer n (answerIn line)) ∨
      (s.board.Lapsed n ∧ ∃ reply, Json.read (Text.strip line) = .ok reply ∧
        s.board.link.notice line = .doom (.unknownId (reply.field "id"))) := by
  obtain ⟨reply, hread, hsame⟩ := h.truthful (r := (n, line)) (by rw [hout]; exact .head _)
  rcases Link.notice_cases s.board.link line with
    ⟨hblank, -⟩ | ⟨id, hid, ⟨reply', hread', hsame'⟩, he⟩ | ⟨why, hrejects, he⟩ | ⟨hkeyless, -, -⟩
  · rw [hblank] at hread
    cases hread
  · rw [hread] at hread'
    cases hread'
    have hn : (id : Int) = n := Json.sameKey_int_inj hsame' hsame
    obtain rfl : id = n := Int.ofNat_inj.1 hn
    exact Or.inl ⟨hid, he⟩
  · rcases hrejects with ⟨f, -, hno, -⟩ | ⟨reply', hread', -, hnone, rfl⟩
    · rw [hread] at hno
      cases hno
    · have hwait : n ∉ s.board.link.waiting := fun hn => hnone n hn ⟨reply, hread, hsame⟩
      -- the reply to a request is on its way, so none was heard before
      have honce := h.once
      unfold received at honce
      rw [hout, List.nodup_append] at honce
      have hnone : n ∉ s.board.given.map Prod.fst := by
        rw [(h.serves_of_ready hready).given, List.map_map]
        intro hn
        exact honce.2.2 n (List.mem_append_right _ (.head _)) n hn rfl
      have hwritten : (s.board.stand n).hasWritten = true := by
        refine h.written.1 (List.mem_append_left _ (List.mem_append_right _ ?_))
        rw [hout]
        exact .head _
      exact Or.inr ⟨h.kept.lapsed hwritten hwait hnone, reply', hread', he⟩
  · refine absurd (fun reply' hread' => ?_) hkeyless
    rw [hread] at hread'
    cases hread'
    exact Json.isKey_of_sameKey_int hsame

/-! ## Steps -/

theorem Serves.of_board {b : Switchboard} (h : s.Serves)
    (hlistener : b.listener = s.board.listener) (hgiven : b.given = s.board.given) :
    Serves { s with board := b } := by
  refine ⟨?_, hgiven.trans h.given⟩
  unfold Lasts
  rw [hlistener]
  exact h.lasts

/-- A step of a caller changes nothing of what was heard and given. -/
theorem Proper.course_caller {b : Switchboard} {inbox : List Nat} (h : s.Proper)
    (hstep : Switchboard.CallerStep s.board b) :
    Serves { s with board := b, inbox := inbox } ∨
      ∃ before n line why, Falls before n line why { s with board := b, inbox := inbox } := by
  obtain ⟨hlistener, hgiven⟩ := h.kept.caller_given hstep
  rcases h.course with hserves | ⟨before, n, line, why, hfalls⟩
  · have hserves' := hserves.of_board hlistener hgiven
    exact Or.inl ⟨hserves'.lasts, hserves'.given⟩
  · refine Or.inr ⟨before, n, line, why, ?_⟩
    exact {
      heard := hfalls.heard
      lapsed := hfalls.lapsed.step h.kept (.caller hstep)
      names := hfalls.names
      board := hfalls.board.callerStep h.kept hstep
      given := by
        obtain ⟨failed, he⟩ := hfalls.given
        exact ⟨failed, hgiven.trans he⟩ }

/-- A listener that goes on with what it has in hand hands it over. -/
theorem Proper.course_listener {b : Switchboard} (h : s.Proper)
    (hbusy : s.board.listener ≠ .ready) (hstep : Switchboard.ListenerStep s.board b) :
    Serves { s with board := b } ∨
      ∃ before n line why, Falls before n line why { s with board := b } := by
  rcases h.course with hserves | ⟨before, n, line, why, hfalls⟩
  · obtain ⟨id, a, hdelivering⟩ := hserves.lasts.resolve_left hbusy
    refine Or.inl ?_
    cases hstep with
    | @deliver id' a' hl =>
      refine ⟨Or.inl rfl, ?_⟩
      rw [← hserves.given, Switchboard.given_eq hl]
      exact List.append_nil _
    | hear hl | deafen hl | hangUp hl | die hl | fail hl | stop hl =>
      rw [hdelivering] at hl
      cases hl
  · refine Or.inr ⟨before, n, line, why, ?_⟩
    exact {
      heard := hfalls.heard
      lapsed := hfalls.lapsed.step h.kept (.listener hstep)
      names := hfalls.names
      board := hfalls.board.listenerStep h.kept hstep
      given := by
        obtain ⟨failed, he⟩ := hfalls.given
        obtain ⟨more, hmore⟩ := hfalls.board.given_step h.kept hstep
        refine ⟨failed ++ more, ?_⟩
        rw [List.map_append, ← List.append_assoc, ← he]
        exact hmore }

/-- A reply that is heard is handed to its own request, or the link falls with it. -/
theorem Proper.course_hear {rest : List (Nat × Text)} (h : s.Proper)
    (hready : s.board.listener = .ready) (hout : s.outbox = (n, line) :: rest) :
    let s' : Correspondence :=
      { s with board := s.board.hear line, outbox := rest, heard := s.heard ++ [(n, line)] }
    s'.Serves ∨ ∃ before n line why, s'.Falls before n line why := by
  intro s'
  have hserves := h.serves_of_ready hready
  have hdone : s.board.given = s.board.done :=
    Switchboard.given_eq_done (by rw [hready]; rfl)
  have hboard : s'.board = s.board.hear line := rfl
  unfold Switchboard.hear at hboard
  rcases h.next hready hout with ⟨-, hnotice⟩ | ⟨hlapsed, reply, hread, hnotice⟩
  · refine Or.inl ⟨Or.inr ⟨n, answerIn line, ?_⟩, ?_⟩
    · rw [hboard, hnotice]
      rfl
    · show s'.board.given = (s.heard ++ [(n, line)]).map own
      rw [List.map_append, ← hserves.given, hdone, hboard, hnotice]
      rfl
  · refine Or.inr ⟨s.heard, n, line, .unknownId (reply.field "id"), ?_⟩
    exact {
      heard := rfl
      lapsed := hlapsed.step h.kept (.listener (.hear hready))
      names := ⟨reply, hread, rfl⟩
      board := ⟨Or.inl (by rw [hboard, hnotice]; rfl), nofun⟩
      given := by
        refine ⟨[], ?_⟩
        rw [← hserves.given, hdone, hboard, hnotice]
        rfl }

theorem Proper.step (h : s.Proper) (hstep : Step s s') : s'.Proper := by
  have hkept : s'.board.Kept := by
    rcases hstep.board with he | hb
    · rw [he]
      exact h.kept
    · exact h.kept.step hb
  cases hstep with
  | @write n hs =>
    have hstep : Switchboard.CallerStep s.board (s.board.put n .written) := .write hs
    have hnew : n ∉ s.received := fun hn => by
      have hwritten := h.written.1 hn
      rw [hs] at hwritten
      cases hwritten
    have hmore : (Correspondence.received
        { s with board := s.board.put n .written, inbox := s.inbox ++ [n] }).Perm
        (n :: s.received) := by
      unfold received
      rw [List.append_assoc, List.append_assoc, List.append_assoc]
      exact List.perm_middle
    exact {
      kept := hkept
      once := hmore.nodup_iff.2 (List.nodup_cons.2 ⟨hnew, h.once⟩)
      written := fun {id} => by
        rw [hmore.mem_iff, List.mem_cons]
        by_cases he : id = n
        · subst he
          rw [Switchboard.stand_put]
          exact iff_of_true (Or.inl rfl) rfl
        · rw [Switchboard.stand_put_of_ne he, ← h.written]
          exact or_iff_right he
      truthful := h.truthful
      course := h.course_caller hstep }
  | caller hc hwrites =>
    exact {
      kept := hkept
      once := h.once
      written := ⟨fun hid => Switchboard.hasWritten_step hc h.kept (h.written.1 hid),
        fun hid => h.written.2 (Switchboard.hasWritten_of_step hc hwrites hid)⟩
      truthful := h.truthful
      course := h.course_caller hc }
  | @answer n line before after hin hreplies =>
    have hperm := received_answer line hin
    exact {
      kept := hkept
      once := hperm.nodup_iff.2 h.once
      written := hperm.mem_iff.trans h.written
      truthful := fun hr => by
        rcases List.mem_append.1 hr with hr | hr
        · exact h.truthful hr
        · obtain rfl := List.mem_singleton.1 hr
          exact hreplies
      course := by
        rcases h.course with hserves | ⟨before, n, line, why, hfalls⟩
        · exact Or.inl ⟨hserves.lasts, hserves.given⟩
        · exact Or.inr ⟨before, n, line, why, hfalls.heard, hfalls.lapsed, hfalls.names,
            hfalls.board, hfalls.given⟩ }
  | @hear n line rest hready hout =>
    have hperm := received_hear (b := s.board.hear line) hout
    exact {
      kept := hkept
      once := hperm.nodup_iff.2 h.once
      written := by
        intro id
        obtain ⟨as, ht⟩ := h.kept.exists_takes (@Switchboard.ListenerStep.hear _ line hready)
        rw [ht.stand]
        exact hperm.mem_iff.trans h.written
      truthful := fun hr => h.truthful (by rw [hout]; exact .tail _ hr)
      course := h.course_hear hready hout }
  | @listener b hbusy hl =>
    exact {
      kept := hkept
      once := h.once
      written := by
        intro id
        obtain ⟨as, ht⟩ := h.kept.exists_takes hl
        rw [ht.stand]
        exact h.written
      truthful := h.truthful
      course := h.course_listener hbusy hl }

theorem Reached.proper (h : Reached s) : s.Proper := by
  induction h with
  | refl => exact proper_empty
  | tail _ hstep ih => exact ih.step hstep

/-! ## What becomes of the link -/

theorem Falls.not_lasts {before : List (Nat × Text)} (h : s.Falls before n line why) :
    ¬ s.Lasts := by
  rintro (hl | ⟨id, a, hl⟩) <;> rcases h.board.listener with hdoomed | ⟨-, hidle⟩
  · rw [hl] at hdoomed
    cases hdoomed
  · rw [hl] at hidle
    cases hidle
  · rw [hl] at hdoomed
    cases hdoomed
  · rw [hl] at hidle
    cases hidle

/-- A reply that was heard while the link lasts was not late. -/
theorem Serves.not_lapsed (h : s.Serves) {r : Nat × Text} (hr : r ∈ s.heard) :
    ¬ s.board.Lapsed r.1 := by
  rintro ⟨-, hnone⟩
  rw [h.given] at hnone
  exact hnone (List.mem_map.2 ⟨own r, List.mem_map_of_mem hr, rfl⟩)

theorem Proper.lasts_iff (h : s.Proper) : s.Lasts ↔ ∀ r ∈ s.heard, ¬ s.board.Lapsed r.1 := by
  rcases h.course with hserves | ⟨before, n, line, why, hfalls⟩
  · exact iff_of_true hserves.lasts fun r hr => hserves.not_lapsed hr
  · refine iff_of_false hfalls.not_lasts fun hnone => hnone (n, line) ?_ hfalls.lapsed
    rw [hfalls.heard]
    exact List.mem_append_right _ (.head _)

/-- What a late reply does to the link. -/
structure Lost (s : Correspondence) (why : ActorFault) : Prop where
  /-- All requests that wait are about to fail, or the link is dead already. -/
  ends : (s.board.listener = .doomed why ∧ s.board.Fails why) ∨ s.board.link.dead = some why
  /-- What was given are answers that were heard, each to its own request, and failures. -/
  given : ∀ p ∈ s.board.given, p ∈ s.heard.map own ∨ p.2 = .error why
  /-- Over the dead link no later request is registered. -/
  refuses : s.board.link.dead = some why → ∀ s', Later s s' → ∀ id,
    (s.board.stand id).hasRegistered = false → s'.board.stand id = .absent ∨
      s'.board.stand id = .named ∨ s'.board.stand id = .refused why

theorem Falls.lost {before : List (Nat × Text)} (h : s.Falls before n line why)
    (hk : s.board.Kept) : s.Lost why where
  ends := h.board.listener.imp (fun hdoomed => ⟨hdoomed, hk.fails hdoomed⟩) And.left
  given p hp := by
    obtain ⟨failed, hgiven⟩ := h.given
    rw [hgiven, List.mem_append] at hp
    rcases hp with hp | hp
    · rw [h.heard, List.map_append]
      exact Or.inl (List.mem_append_left _ hp)
    · obtain ⟨id, -, rfl⟩ := List.mem_map.1 hp
      exact Or.inr rfl
  refuses hdead s' hlater id hid := (hk.refuses_later hdead hlater.board hid).1

/-- What becomes of a link whose actor stays alive and answers every request once. -/
structure Fate (s : Correspondence) : Prop where
  /-- The link lasts if and only if no reply was heard too late. -/
  lasts : s.Lasts ↔ ∀ r ∈ s.heard, ¬ s.board.Lapsed r.1
  /-- As long as it lasts, requests are registered over it, and every reply that was heard has
  answered its own request and no other. -/
  serves : s.Lasts → s.board.link.dead = none ∧
    (∀ id, (s.board.link.register id).isOk = true) ∧ s.board.given = s.heard.map own
  /-- The next reply is handed to its own request, or it is late and the link falls with it. -/
  next : s.board.listener = .ready → ∀ n line rest, s.outbox = (n, line) :: rest →
    (n ∈ s.board.link.waiting ∧ (s.board.hear line).listener = .delivering n (answerIn line) ∧
        (s.board.hear line).link = s.board.link.withdraw n) ∨
      (s.board.Lapsed n ∧ ∃ reply, Json.read (Text.strip line) = .ok reply ∧
        (s.board.hear line).listener = .doomed (.unknownId (reply.field "id")))
  /-- With a late reply the link is lost, because nobody knows the request that it names. -/
  falls : ∀ r ∈ s.heard, s.board.Lapsed r.1 → ∃ before reply, s.heard = before ++ [r] ∧
    Json.read (Text.strip r.2) = .ok reply ∧ s.Lost (.unknownId (reply.field "id"))
  /-- When all replies were heard, the link has lasted if and only if no request had lapsed. -/
  settled : s.inbox = [] → s.outbox = [] → (s.Lasts ↔ ∀ n, ¬ s.board.Lapsed n)

theorem Proper.next_heard (h : s.Proper) (hready : s.board.listener = .ready)
    {rest : List (Nat × Text)} (hout : s.outbox = (n, line) :: rest) :
    (n ∈ s.board.link.waiting ∧ (s.board.hear line).listener = .delivering n (answerIn line) ∧
        (s.board.hear line).link = s.board.link.withdraw n) ∨
      (s.board.Lapsed n ∧ ∃ reply, Json.read (Text.strip line) = .ok reply ∧
        (s.board.hear line).listener = .doomed (.unknownId (reply.field "id"))) := by
  unfold Switchboard.hear
  rcases h.next hready hout with ⟨hwait, hnotice⟩ | ⟨hlapsed, reply, hread, hnotice⟩ <;>
    rw [hnotice]
  · exact Or.inl ⟨hwait, rfl, rfl⟩
  · exact Or.inr ⟨hlapsed, reply, hread, rfl⟩

/-- Only the reply that was heard last can have been late. -/
theorem Proper.falls (h : s.Proper) {r : Nat × Text} (hr : r ∈ s.heard)
    (hlapsed : s.board.Lapsed r.1) : ∃ before reply, s.heard = before ++ [r] ∧
      Json.read (Text.strip r.2) = .ok reply ∧ s.Lost (.unknownId (reply.field "id")) := by
  rcases h.course with hserves | ⟨before, n, line, why, hfalls⟩
  · exact absurd hlapsed (hserves.not_lapsed hr)
  · obtain ⟨reply, hread, rfl⟩ := hfalls.names
    rw [hfalls.heard, List.mem_append, List.mem_singleton] at hr
    rcases hr with hr | rfl
    · -- what was heard before was given to its own request
      obtain ⟨failed, hgiven⟩ := hfalls.given
      refine absurd ?_ hlapsed.2
      rw [hgiven, List.map_append]
      exact List.mem_append_left _ (List.mem_map.2 ⟨own r, List.mem_map_of_mem hr, rfl⟩)
    · exact ⟨before, reply, hfalls.heard, hread, hfalls.lost h.kept⟩

/-- A request that lapsed was received, so its reply is heard in the end. -/
theorem Proper.settled (h : s.Proper) (hin : s.inbox = []) (hout : s.outbox = []) :
    s.Lasts ↔ ∀ n, ¬ s.board.Lapsed n := by
  rw [h.lasts_iff]
  refine ⟨fun hnone n hlapsed => ?_, fun hnone r _ => hnone r.1⟩
  have hreceived : n ∈ s.received := h.written.2 (by rw [hlapsed.1]; rfl)
  unfold received at hreceived
  rw [hin, hout] at hreceived
  obtain ⟨r, hr, rfl⟩ := List.mem_map.1 hreceived
  exact hnone r hr hlapsed

/-! ## Top theorem -/

/-- Over a link whose actor stays alive and answers every request once, in whatever order and after
whatever delay, a request that was not answered in time harms nobody until its reply is heard. If
that comes after the request was given up, it is the death of the link: the requests that wait fail
with it, and later ones are refused. As every request is answered, the link can be used after a
failed set if and only if no request of it lapsed, or as long as the late reply is on its way. -/
theorem Reached.fate (h : Reached s) : s.Fate := by
  have hp := h.proper
  refine {
    lasts := hp.lasts_iff
    serves := fun hlasts => ?_
    next := fun hready n line rest => hp.next_heard hready
    falls := fun r => hp.falls
    settled := hp.settled }
  have hwork : s.board.listener.isAtWork = true := by
    rcases hlasts with hl | ⟨id, a, hl⟩ <;> rw [hl] <;> rfl
  have hdead := (hp.kept.alive hwork).1
  refine ⟨hdead, fun id => ?_, ?_⟩
  · rw [Link.register_of_alive hp.kept.writable hdead]
    rfl
  · rcases hp.course with hserves | ⟨before, n, line, why, hfalls⟩
    · exact hserves.given
    · exact absurd hlasts hfalls.not_lasts

/-- The object in the reply to the first request. -/
def replyObject : Json :=
  .object [("id", .int 1), ("ok", .bool true),
    ("result", .object [("outputs", .array [.text "aa"])])]

theorem read_replyToOne :
    Json.read (Text.strip Switchboard.replyToOne) = .ok replyObject := by
  have hline : Switchboard.replyToOne =
      Json.write Json.compact (successReply 1 ["aa"]) ++ [] := by
    decide
  rw [hline]
  exact read_successReply Json.isBlank_compact nofun (by decide)

theorem repliesTo_replyToOne : RepliesTo 1 Switchboard.replyToOne :=
  ⟨_, read_replyToOne, rfl⟩

/-- To a link over which only the second request waits, a reply to the first one is its death. -/
theorem notice_lateReply : Link.notice Switchboard.replyToOne { lastId := 2, waiting := [2] } =
    .doom (.unknownId (.int 1)) := by
  refine Link.notice_eq_doom_iff.2 (Or.inr ⟨_, read_replyToOne, Or.inl rfl, ?_, rfl⟩)
  rw [List.forall_mem_singleton]
  rintro ⟨reply, hread, hsame⟩
  rw [read_replyToOne] at hread
  cases hread
  exact absurd hsame (by decide)

theorem hear_step {rest : List (Nat × Text)} (hready : s.board.listener = .ready)
    (hout : s.outbox = (n, line) :: rest) (hnotice : s.board.link.notice line = .doom why) :
    Step s { s with
      board := { s.board with heard := s.board.heard ++ [line], listener := .doomed why }
      outbox := rest
      heard := s.heard ++ [(n, line)] } := by
  have hstep : Step s { s with
      board := s.board.hear line
      outbox := rest
      heard := s.heard ++ [(n, line)] } := .hear hready hout
  unfold Switchboard.hear at hstep
  rwa [hnotice] at hstep

/-- A caller that writes nothing takes a step. -/
theorem caller_step {b : Switchboard} {id : Nat} {stand : Stand}
    (hstep : Switchboard.CallerStep s.board (b.put id stand)) (hb : b.stand = s.board.stand)
    (hstand : stand ≠ .written) : Step s { s with board := b.put id stand } := by
  refine .caller hstep fun n hn => ?_
  by_cases he : n = id
  · subst he
    rw [Switchboard.stand_put] at hn
    exact absurd hn hstand
  · rwa [Switchboard.stand_put_of_ne he, hb] at hn

/-- The first request lapses, and the second one waits, when the reply to the first one is on its
way. -/
theorem exists_reached_late : ∃ s, Reached s ∧ s.board.listener = .ready ∧
    s.board.link = { lastId := 2, waiting := [2] } ∧ s.board.stand 1 = .expired ∧
    s.board.stand 2 = .written ∧ s.board.done = [] ∧ s.inbox = [2] ∧
    s.outbox = [(1, Switchboard.replyToOne)] ∧ s.heard = [] := by
  have h₀ : Reached {} := .refl
  have h₁ := h₀.tail (caller_step .enter rfl nofun)
  have h₂ := h₁.tail (caller_step (.register (n := 1) rfl rfl) rfl nofun)
  have h₃ := h₂.tail (.write (n := 1) rfl)
  have h₄ := h₃.tail (caller_step (.timeOut (n := 1) rfl rfl) rfl nofun)
  have h₅ := h₄.tail (caller_step (.expire (n := 1) rfl) rfl nofun)
  have h₆ := h₅.tail (caller_step .enter rfl nofun)
  have h₇ := h₆.tail (caller_step (.register (n := 2) rfl rfl) rfl nofun)
  have h₈ := h₇.tail (.write (n := 2) rfl)
  have h₉ := h₈.tail (@Step.answer _ 1 _ [] [2] rfl repliesTo_replyToOne)
  exact ⟨_, h₉, rfl, rfl, rfl, rfl, rfl, rfl, rfl, rfl⟩

theorem exists_reached_fate : ∃ s, Reached s ∧ s.Fate ∧ s.Lasts ∧ s.board.Lapsed 1 ∧
    s.board.link.waiting = [2] ∧ s.outbox = [(1, Switchboard.replyToOne)] := by
  obtain ⟨s, hs, hready, hlink, hexpired, -, hdone, -, hout, -⟩ := exists_reached_late
  have hgiven : s.board.given = [] := by
    rw [Switchboard.given_eq hready, hdone]
    rfl
  refine ⟨s, hs, Reached.fate hs, Or.inl hready, ⟨hexpired, ?_⟩, by rw [hlink], hout⟩
  rw [hgiven]
  exact List.not_mem_nil

/-- A set can fail because a request was not answered in time, and then the next one is not run
cleanly: the late reply fails the second request, and the link is dead. -/
theorem exists_reached_unclean : ∃ s, Reached s ∧ s.board.stand 1 = .expired ∧
    s.heard = [(1, Switchboard.replyToOne)] ∧ s.inbox = [2] ∧
    s.board.link.dead = some (.unknownId (.int 1)) ∧
    s.board.stand 2 = .told (.error (.unknownId (.int 1))) := by
  obtain ⟨s, hs, hready, hlink, hexpired, hwritten, hdone, hin, hout, hheard⟩ :=
    exists_reached_late
  have h₁ := hs.tail (hear_step hready hout (by rw [hlink]; exact notice_lateReply))
  have h₂ := h₁.tail (.listener nofun (.die rfl))
  have h₃ := h₂.tail (.listener nofun (@Switchboard.ListenerStep.fail _ _ 2 [] (by rw [hlink])))
  have h₄ := h₃.tail (caller_step (.wake (n := 2) hwritten (by rw [hdone]; rfl)) rfl nofun)
  refine ⟨_, h₄, ?_, ?_, hin, rfl, Switchboard.stand_put⟩
  · rw [Switchboard.stand_put_of_ne (by decide)]
    exact hexpired
  · rw [hheard]
    rfl

end Correspondence

end XofConformance.Actor
