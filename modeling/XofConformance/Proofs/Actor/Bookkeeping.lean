import Mathlib.Data.List.Nodup
import XofConformance.Proofs.Actor.Switchboard

/-!
# Bookkeeping at the switchboard

What is known of every switchboard that can come about, whatever the actor writes and however the
steps of the callers and of the listener mix: the requests that wait are those that are open and
have been given no answer, no request is given two, and what an answer says was heard. A caller
moves only itself, and the listener only takes requests out of those that wait.

    a step of a caller is a move, a step of the listener a taking    (exists_moves, exists_takes)
    Reached t → t.Kept                                                          (Reached.kept)
-/

namespace XofConformance.Actor

namespace Switchboard

variable {t t' : Switchboard} {id : Nat} {why : ActorFault}

/-! ## What every step keeps -/

/-- What is known of every switchboard: the requests that wait are those that are open and have been
given no answer, no request is given two, and what an answer says was heard. -/
structure Kept (t : Switchboard) : Prop where
  writable : t.link.writable = true
  fresh {id : Nat} : t.link.lastId < id → t.stand id = .absent
  alive : t.listener.isAtWork = true → t.link.dead = none ∧ t.link.listening = true
  fallen {why : ActorFault} {ids : List Nat} : t.listener = .failing why ids →
    t.link.dead = some why
  emptied {why : ActorFault} : t.link.dead = some why → t.link.waiting = []
  distinct : t.link.waiting.Nodup
  waiting {id : Nat} : id ∈ t.link.waiting ↔
    (t.stand id).isOpen = true ∧ id ∉ t.given.map Prod.fst
  once : (t.given.map Prod.fst).Nodup
  entered {id : Nat} : id ∈ t.given.map Prod.fst → (t.stand id).hasRegistered = true
  truthful {id : Nat} {results : List Bytes} : (id, .ok results) ∈ t.given →
    ∃ line ∈ t.heard, RepliesTo id line ∧ answerIn line = .ok results
  refused {id : Nat} {why : ActorFault} : t.stand id = .refused why → t.link.dead = some why
  told {id : Nat} {a : Answer} : t.stand id = .told a → (id, a) ∈ t.done

theorem kept_empty : Kept {} where
  writable := rfl
  fresh _ := rfl
  alive _ := ⟨rfl, rfl⟩
  fallen h := by cases h
  emptied h := by cases h
  distinct := List.nodup_nil
  waiting := iff_of_false (List.not_mem_nil) (fun h => nomatch h.1)
  once := List.nodup_nil
  entered h := by cases h
  truthful h := by cases h
  refused h := by cases h
  told h := by cases h

theorem Kept.le_lastId (h : t.Kept) (hid : t.stand id ≠ .absent) : id ≤ t.link.lastId := by
  by_contra hlt
  exact hid (h.fresh (by omega))

/-! ## Callers -/

/-- What a caller does to its own place and to the link, when it keeps what is known. -/
structure Moves (t : Switchboard) (id : Nat) (l : Link) (s : Stand) : Prop where
  writable : l.writable = t.link.writable
  dead : l.dead = t.link.dead
  listening : l.listening = t.link.listening
  lastId : t.link.lastId ≤ l.lastId
  named : id ≤ l.lastId
  emptied {why : ActorFault} : t.link.dead = some why → l.waiting = []
  distinct : l.waiting.Nodup
  others {n : Nat} : n ≠ id → (n ∈ l.waiting ↔ n ∈ t.link.waiting)
  own : id ∈ l.waiting ↔ s.isOpen = true ∧ id ∉ t.given.map Prod.fst
  entered : id ∈ t.given.map Prod.fst → s.hasRegistered = true
  refused {why : ActorFault} : s = .refused why → t.link.dead = some why
  told {a : Answer} : s = .told a → (id, a) ∈ t.done
  going : (t.stand id).isGivenUp = false
  goes : (t.stand id).isOpen = true →
    s.isOpen = true ∨ s.isGivenUp = true ∨ ∃ a, s = .told a
  registers : s.hasRegistered = true →
    (t.stand id).hasRegistered = true ∨ t.link.dead = none

theorem Kept.put {l : Link} {s : Stand} (h : t.Kept) (hm : t.Moves id l s) :
    ({ t with link := l }.put id s).Kept := by
  have hother : ∀ {n : Nat}, n ≠ id → ({ t with link := l }.put id s).stand n = t.stand n :=
    stand_put_of_ne
  have hown : ({ t with link := l }.put id s).stand id = s := stand_put
  exact {
    writable := hm.writable.trans h.writable
    fresh := fun {n} hn => by
      have hn' : l.lastId < n := hn
      have hne : n ≠ id := by
        have := hm.named
        omega
      rw [hother hne]
      exact h.fresh (Nat.lt_of_le_of_lt hm.lastId hn')
    alive := fun ha => by
      obtain ⟨hdead, hlistening⟩ := h.alive ha
      exact ⟨hm.dead.trans hdead, hm.listening.trans hlistening⟩
    fallen := fun hf => hm.dead.trans (h.fallen hf)
    emptied := fun hd => hm.emptied (hm.dead.symm.trans hd)
    distinct := hm.distinct
    waiting := fun {n} => by
      by_cases hn : n = id
      · subst hn
        rw [hown]
        exact hm.own
      · rw [hother hn]
        exact (hm.others hn).trans h.waiting
    once := h.once
    entered := fun {n} hn => by
      by_cases he : n = id
      · subst he
        rw [hown]
        exact hm.entered hn
      · rw [hother he]
        exact h.entered hn
    truthful := h.truthful
    refused := fun {n why} hs => by
      by_cases hn : n = id
      · subst hn
        rw [hown] at hs
        exact hm.dead.trans (hm.refused hs)
      · rw [hother hn] at hs
        exact hm.dead.trans (h.refused hs)
    told := fun {n a} hs => by
      by_cases hn : n = id
      · subst hn
        rw [hown] at hs
        exact hm.told hs
      · rw [hother hn] at hs
        exact h.told hs }

/-- A caller may go on with an open request, or end with the answer to it. -/
theorem Kept.moves_on {s : Stand} (h : t.Kept) (hopen : (t.stand id).isOpen = true)
    (hs : s.isOpen = true ∨ ∃ a, s = .told a ∧ (id, a) ∈ t.done) : t.Moves id t.link s where
  writable := rfl
  dead := rfl
  listening := rfl
  lastId := Nat.le_refl _
  named := h.le_lastId fun he => by
    rw [he] at hopen
    cases hopen
  emptied := h.emptied
  distinct := h.distinct
  others _ := Iff.rfl
  own := by
    rcases hs with hs | ⟨a, rfl, ha⟩
    · rw [h.waiting, hopen, hs]
    · have hgiven : id ∈ t.given.map Prod.fst :=
        List.mem_map.2 ⟨_, List.mem_append_left _ ha, rfl⟩
      exact iff_of_false (fun hw => (h.waiting.1 hw).2 hgiven) fun hw => hw.2 hgiven
  entered _ := by
    rcases hs with hs | ⟨a, rfl, -⟩
    · exact Stand.hasRegistered_of_isOpen hs
    · rfl
  refused he := by
    rcases hs with hs | ⟨a, rfl, -⟩
    · rw [he] at hs
      cases hs
    · cases he
  told he := by
    rcases hs with hs | ⟨a', rfl, ha⟩
    · rw [he] at hs
      cases hs
    · cases he
      exact ha
  going := Stand.isGivenUp_of_isOpen hopen
  goes _ := by
    rcases hs with hs | ⟨a, rfl, -⟩
    · exact Or.inl hs
    · exact Or.inr (Or.inr ⟨a, rfl⟩)
  registers _ := Or.inl (Stand.hasRegistered_of_isOpen hopen)

/-- A caller may give an open request up. -/
theorem Kept.moves_up {s : Stand} (h : t.Kept) (hopen : (t.stand id).isOpen = true)
    (hs : s.isGivenUp = true) : t.Moves id (t.link.withdraw id) s where
  writable := rfl
  dead := rfl
  listening := rfl
  lastId := Nat.le_refl _
  named := h.le_lastId fun he => by
    rw [he] at hopen
    cases hopen
  emptied hd := by
    unfold Link.withdraw
    rw [h.emptied hd]
    rfl
  distinct := h.distinct.filter _
  others hn := by
    rw [Link.mem_withdraw]
    exact and_iff_left hn
  own := by
    refine iff_of_false (fun hw => (Link.mem_withdraw.1 hw).2 rfl) fun hw => ?_
    rw [Stand.isOpen_of_isGivenUp hs] at hw
    cases hw.1
  entered _ := Stand.hasRegistered_of_isGivenUp hs
  refused he := by
    rw [he] at hs
    cases hs
  told he := by
    rw [he] at hs
    cases hs
  going := Stand.isGivenUp_of_isOpen hopen
  goes _ := Or.inr (Or.inl hs)
  registers _ := Or.inl (Stand.hasRegistered_of_isOpen hopen)

/-- A request that was not registered does not wait, and no answer was given to it. -/
theorem Kept.unregistered (h : t.Kept) (id : Nat) (hs : (t.stand id).hasRegistered = false) :
    id ∉ t.link.waiting ∧ id ∉ t.given.map Prod.fst := by
  have hno : (t.stand id).hasRegistered ≠ true := by
    rw [hs]
    decide
  exact ⟨fun hw => hno (Stand.hasRegistered_of_isOpen (h.waiting.1 hw).1),
    fun hg => hno (h.entered hg)⟩

/-- A caller that is not registered may take an identifier, or learn that it is refused. -/
theorem Kept.moves_outside {last : Nat} {s : Stand} (h : t.Kept)
    (hbefore : (t.stand id).hasRegistered = false) (hafter : s.hasRegistered = false)
    (hlast : t.link.lastId ≤ last) (hnamed : id ≤ last)
    (hwhy : ∀ {why}, s = .refused why → t.link.dead = some why) :
    t.Moves id { t.link with lastId := last } s := by
  obtain ⟨hwait, hgiven⟩ := h.unregistered id hbefore
  have hclosed : s.isOpen ≠ true := fun hs => by
    rw [Stand.hasRegistered_of_isOpen hs] at hafter
    cases hafter
  exact {
    writable := rfl
    dead := rfl
    listening := rfl
    lastId := hlast
    named := hnamed
    emptied := h.emptied
    distinct := h.distinct
    others := fun _ => Iff.rfl
    own := iff_of_false hwait fun hw => hclosed hw.1
    entered := fun hg => absurd hg hgiven
    refused := hwhy
    told := fun he => by
      rw [he] at hafter
      cases hafter
    going := Bool.eq_false_iff.2 fun hup => by
      rw [Stand.hasRegistered_of_isGivenUp hup] at hbefore
      cases hbefore
    goes := fun hopen => by
      rw [Stand.hasRegistered_of_isOpen hopen] at hbefore
      cases hbefore
    registers := fun hs => by
      rw [hs] at hafter
      cases hafter }

theorem Kept.enters (h : t.Kept) : t.Moves t.link.take.1 t.link.take.2 .named :=
  have hfresh : t.stand t.link.take.1 = .absent := h.fresh (Nat.lt_succ_self _)
  h.moves_outside (by rw [hfresh]; rfl) rfl (Nat.le_succ _) (Nat.le_refl _) nofun

/-- A request is registered over a link that is alive. -/
theorem Kept.registers {l : Link} (h : t.Kept) (hs : t.stand id = .named)
    (hreg : t.link.register id = .ok l) : t.link.dead = none ∧ t.Moves id l .registered := by
  obtain ⟨hwait, hgiven⟩ := h.unregistered id (by rw [hs]; rfl)
  cases hd : t.link.dead with
  | some why =>
    have hno := Link.register_of_dead (l := t.link) (by rw [hd]; rfl) id
    rw [hreg] at hno
    cases hno
  | none =>
    rw [Link.register_of_alive h.writable hd] at hreg
    cases hreg
    refine ⟨rfl, ?_⟩
    exact {
      writable := rfl
      dead := rfl
      listening := rfl
      lastId := Nat.le_refl _
      named := h.le_lastId (by rw [hs]; exact nofun)
      emptied := fun he => by
        rw [hd] at he
        cases he
      distinct := by
        rw [← List.concat_eq_append]
        exact h.distinct.concat hwait
      others := fun {n} hn => by
        rw [List.mem_append, List.mem_singleton]
        exact or_iff_left hn
      own := iff_of_true (List.mem_append_right _ (List.mem_singleton_self id)) ⟨rfl, hgiven⟩
      entered := fun _ => rfl
      refused := nofun
      told := nofun
      going := by rw [hs]; rfl
      goes := fun _ => Or.inl rfl
      registers := fun _ => Or.inr hd }

/-- A request is refused over a link that is dead, with the reason of its death. -/
theorem Kept.refuses (h : t.Kept) (hs : t.stand id = .named)
    (hreg : t.link.register id = .error why) : t.Moves id t.link (.refused why) := by
  have hdead : t.link.dead = some why := by
    cases hd : t.link.dead with
    | none =>
      rw [Link.register_of_alive h.writable hd] at hreg
      cases hreg
    | some why' =>
      unfold Link.register at hreg
      rw [h.writable, hd] at hreg
      cases hreg
      rfl
  refine h.moves_outside (by rw [hs]; rfl) rfl (Nat.le_refl _) (h.le_lastId ?_) fun he => ?_
  · rw [hs]
    exact nofun
  · cases he
    exact hdead

/-- A step of a caller changes its own place, and the link as far as its request is concerned. -/
theorem Kept.exists_moves (h : t.Kept) (hstep : CallerStep t t') :
    ∃ id l s, t' = { t with link := l }.put id s ∧ t.Moves id l s := by
  cases hstep with
  | enter => exact ⟨_, _, _, rfl, h.enters⟩
  | register hs hreg => exact ⟨_, _, _, rfl, (h.registers hs hreg).2⟩
  | refuse hs hreg => exact ⟨_, _, _, rfl, h.refuses hs hreg⟩
  | write hs => exact ⟨_, _, _, rfl, h.moves_on (by rw [hs]; rfl) (Or.inl rfl)⟩
  | fail hs => exact ⟨_, _, _, rfl, h.moves_on (by rw [hs]; rfl) (Or.inl rfl)⟩
  | withdraw hs => exact ⟨_, _, _, rfl, h.moves_up (by rw [hs]; rfl) rfl⟩
  | @wake id a hs ha =>
    have hmem : (id, a) ∈ t.done := by
      obtain ⟨before, after, he, -⟩ := List.lookup_eq_some_iff.1 ha
      rw [he]
      exact List.mem_append_right before List.mem_cons_self
    exact ⟨_, _, _, rfl, h.moves_on (by rw [hs]; rfl) (Or.inr ⟨_, rfl, hmem⟩)⟩
  | timeOut hs _ => exact ⟨_, _, _, rfl, h.moves_on (by rw [hs]; rfl) (Or.inl rfl)⟩
  | expire hs => exact ⟨_, _, _, rfl, h.moves_up (by rw [hs]; rfl) rfl⟩

/-- Whoever waits goes on waiting when a caller takes a step, unless it gives its request up. -/
theorem Kept.waits_or_up {n : Nat} {l : Link} {s : Stand} (h : t.Kept) (hm : t.Moves n l s)
    (hid : id ∈ t.link.waiting) :
    id ∈ l.waiting ∨ (({ t with link := l }.put n s).stand id).isGivenUp = true := by
  by_cases he : id = n
  · subst he
    obtain ⟨hopen, hnone⟩ := h.waiting.1 hid
    rcases hm.goes hopen with hs | hs | ⟨a, rfl⟩
    · exact Or.inl (hm.own.2 ⟨hs, hnone⟩)
    · rw [stand_put]
      exact Or.inr hs
    · have hgiven : (id, a) ∈ t.given := List.mem_append_left _ (hm.told rfl)
      exact absurd (List.mem_map.2 ⟨_, hgiven, rfl⟩) hnone
  · exact Or.inl ((hm.others he).2 hid)

/-- No caller takes a step for a request that was given up. -/
theorem Moves.stand_of_isGivenUp {n : Nat} {l : Link} {s : Stand} (hm : t.Moves n l s)
    (hup : (t.stand id).isGivenUp = true) :
    ({ t with link := l }.put n s).stand id = t.stand id := by
  have hne : id ≠ n := by
    rintro rfl
    rw [hm.going] at hup
    cases hup
  exact stand_put_of_ne hne

/-! ## The listener -/

/-- What the listener does, when it keeps what is known: it takes requests out of those that wait
and has answers to them. -/
structure Takes (t t' : Switchboard) (as : Answers) : Prop where
  stand : t'.stand = t.stand
  given : t'.given = t.given ++ as
  writable : t'.link.writable = t.link.writable
  lastId : t'.link.lastId = t.link.lastId
  waiting {id : Nat} : id ∈ t'.link.waiting ↔ id ∈ t.link.waiting ∧ id ∉ as.map Prod.fst
  distinct : t'.link.waiting.Nodup
  taken {id : Nat} : id ∈ as.map Prod.fst → id ∈ t.link.waiting
  once : (as.map Prod.fst).Nodup
  truthful {id : Nat} {results : List Bytes} : (id, .ok results) ∈ as →
    ∃ line ∈ t'.heard, RepliesTo id line ∧ answerIn line = .ok results
  heard : t.heard ⊆ t'.heard
  done : t.done <+: t'.done
  dead {why : ActorFault} : t.link.dead = some why → t'.link.dead = some why
  alive : t'.listener.isAtWork = true → t'.link.dead = none ∧ t'.link.listening = true
  fallen {why : ActorFault} {ids : List Nat} : t'.listener = .failing why ids →
    t'.link.dead = some why
  emptied {why : ActorFault} : t'.link.dead = some why → t'.link.waiting = []

theorem Kept.take {as : Answers} (h : t.Kept) (ht : t.Takes t' as) : t'.Kept where
  writable := ht.writable.trans h.writable
  fresh hid := by
    rw [ht.stand]
    exact h.fresh (ht.lastId ▸ hid)
  alive := ht.alive
  fallen := ht.fallen
  emptied := ht.emptied
  distinct := ht.distinct
  waiting := by
    intro id
    rw [ht.waiting, h.waiting, ht.given, ht.stand, List.map_append, List.mem_append, not_or,
      and_assoc]
  once := by
    rw [ht.given, List.map_append, List.nodup_append]
    refine ⟨h.once, ht.once, ?_⟩
    rintro id hid _ hid' rfl
    exact (h.waiting.1 (ht.taken hid')).2 hid
  entered := by
    intro id hid
    rw [ht.given, List.map_append, List.mem_append] at hid
    rw [ht.stand]
    rcases hid with hid | hid
    · exact h.entered hid
    · exact Stand.hasRegistered_of_isOpen (h.waiting.1 (ht.taken hid)).1
  truthful hr := by
    rw [ht.given, List.mem_append] at hr
    rcases hr with hr | hr
    · obtain ⟨line, hline, htells⟩ := h.truthful hr
      exact ⟨line, ht.heard hline, htells⟩
    · exact ht.truthful hr
  refused hs := by
    rw [ht.stand] at hs
    exact ht.dead (h.refused hs)
  told hs := by
    rw [ht.stand] at hs
    exact ht.done.subset (h.told hs)

theorem given_eq {lis : Listener} (h : t.listener = lis) : t.given = t.done ++ lis.due := by
  rw [← h]
  rfl

theorem given_eq_done (h : t.listener.due = []) : t.given = t.done := by
  rw [given_eq rfl, h, List.append_nil]

/-- The listener goes on with what it has in hand, and takes nothing. -/
theorem Kept.takes_nothing {heard : List Text} {done : Answers} {listening : Bool} (h : t.Kept)
    (lis : Listener) (hgiven : done ++ lis.due = t.given) (hheard : t.heard ⊆ heard)
    (hdone : t.done <+: done)
    (halive : lis.isAtWork = true → t.link.dead = none ∧ listening = true)
    (hfallen : ∀ {why ids}, lis = .failing why ids → t.link.dead = some why) :
    t.Takes { t with link := { t.link with listening }, listener := lis, heard, done } [] where
  stand := rfl
  given := by rw [List.append_nil, ← hgiven]; rfl
  writable := rfl
  lastId := rfl
  waiting := (and_iff_left List.not_mem_nil).symm
  distinct := h.distinct
  taken hid := nomatch hid
  once := List.nodup_nil
  truthful hr := nomatch hr
  heard := hheard
  done := hdone
  dead hd := hd
  alive := halive
  fallen := hfallen
  emptied := h.emptied

/-- A line that answers a request takes it out of those that wait. -/
theorem Kept.takes_answer {line : Text} (h : t.Kept) (hready : t.listener = .ready)
    (hid : id ∈ t.link.waiting) (hreplies : RepliesTo id line) :
    t.Takes
      { t with
        link := t.link.withdraw id
        listener := .delivering id (answerIn line)
        heard := t.heard ++ [line] } [(id, answerIn line)] where
  stand := rfl
  given := by
    have hdone : t.given = t.done := given_eq_done (by rw [hready]; rfl)
    rw [hdone]
    rfl
  writable := rfl
  lastId := rfl
  waiting := by
    intro n
    rw [Link.mem_withdraw, List.map_singleton, List.mem_singleton]
  distinct := h.distinct.filter _
  taken hn := by
    obtain rfl := List.mem_singleton.1 hn
    exact hid
  once := List.nodup_singleton id
  truthful hr := by
    have hp := List.mem_singleton.1 hr
    rw [Prod.mk.injEq] at hp
    obtain ⟨rfl, hanswer⟩ := hp
    exact ⟨line, List.mem_append_right _ (List.mem_singleton_self line), hreplies, hanswer.symm⟩
  heard := List.subset_append_left _ _
  done := List.prefix_rfl
  dead hd := hd
  alive _ := h.alive (by rw [hready]; rfl)
  fallen := nofun
  emptied hd := by
    unfold Link.withdraw
    rw [h.emptied hd]
    rfl

/-- The death of the link takes all requests that wait. -/
theorem Kept.takes_all (h : t.Kept) (hdoomed : t.listener = .doomed why) :
    t.Takes
      { t with link := (t.link.die why).1, listener := .failing why t.link.waiting }
      (t.link.die why).2 where
  stand := rfl
  given := by
    have hdone : t.given = t.done := given_eq_done (by rw [hdoomed]; rfl)
    rw [hdone]
    rfl
  writable := rfl
  lastId := rfl
  waiting := by
    intro id
    rw [Link.map_fst_die]
    exact iff_of_false List.not_mem_nil fun hw => hw.2 hw.1
  distinct := List.nodup_nil
  taken hn := by rwa [Link.map_fst_die] at hn
  once := by
    rw [Link.map_fst_die]
    exact h.distinct
  truthful hr := nomatch (Link.mem_die.1 hr).2
  heard := List.Subset.refl _
  done := List.prefix_rfl
  dead hd := by
    rw [(h.alive (by rw [hdoomed]; rfl)).1] at hd
    cases hd
  alive := nofun
  fallen hf := by
    cases hf
    rfl
  emptied _ := rfl

/-- A step of the listener takes requests out of those that wait, and has answers to them. -/
theorem Kept.exists_takes (h : t.Kept) (hstep : ListenerStep t t') : ∃ as, t.Takes t' as := by
  cases hstep with
  | @hear line hready =>
    have halive := h.alive (by rw [hready]; rfl)
    have hgiven := (given_eq hready).symm
    unfold hear
    rcases Link.notice_cases t.link line with
      ⟨-, he⟩ | ⟨id, hid, hreplies, he⟩ | ⟨why, -, he⟩ | ⟨-, -, he⟩ <;> rw [he]
    · exact ⟨[], h.takes_nothing t.listener rfl (List.subset_append_left _ _) List.prefix_rfl
        (fun _ => halive) h.fallen⟩
    · exact ⟨_, h.takes_answer hready hid hreplies⟩
    · exact ⟨[], h.takes_nothing (.doomed why) hgiven (List.subset_append_left _ _)
        List.prefix_rfl (fun _ => halive) nofun⟩
    · exact ⟨[], h.takes_nothing .stopped hgiven (List.subset_append_left _ _)
        List.prefix_rfl nofun nofun⟩
  | deafen hready =>
    exact ⟨[], h.takes_nothing .stopped (given_eq hready).symm (List.Subset.refl _)
      List.prefix_rfl nofun nofun⟩
  | @hangUp code hready =>
    exact ⟨[], h.takes_nothing (.doomed (.terminated code)) (given_eq hready).symm
      (List.Subset.refl _) List.prefix_rfl (fun _ => h.alive (by rw [hready]; rfl)) nofun⟩
  | @deliver id a hlis =>
    have hgiven := (List.append_nil _).trans (given_eq hlis).symm
    exact ⟨[], h.takes_nothing .ready hgiven (List.Subset.refl _) (List.prefix_append _ _)
      (fun _ => h.alive (by rw [hlis]; rfl)) nofun⟩
  | die hdoomed => exact ⟨_, h.takes_all hdoomed⟩
  | @fail why id rest hlis =>
    have hgiven : t.done ++ [(id, .error why)] ++ (Listener.failing why rest).due = t.given := by
      rw [given_eq hlis, List.append_assoc]
      rfl
    refine ⟨[], h.takes_nothing (.failing why rest) hgiven (List.Subset.refl _)
      (List.prefix_append _ _) nofun ?_⟩
    intro why' ids he
    cases he
    exact h.fallen hlis
  | stop hlis =>
    exact ⟨[], h.takes_nothing .stopped (given_eq hlis).symm (List.Subset.refl _) List.prefix_rfl
      nofun nofun⟩

/-! ## Runs -/

theorem Kept.step (h : t.Kept) (hstep : Step t t') : t'.Kept := by
  cases hstep with
  | caller hc =>
    obtain ⟨id, l, s, rfl, hm⟩ := h.exists_moves hc
    exact h.put hm
  | listener hl =>
    obtain ⟨as, ht⟩ := h.exists_takes hl
    exact h.take ht

theorem Kept.later (h : t.Kept) (hlater : Later t t') : t'.Kept := by
  induction hlater with
  | refl => exact h
  | tail _ hstep ih => exact ih.step hstep

theorem Reached.kept (h : Reached t) : t.Kept := kept_empty.later h

/-! ## What only grows -/

/-- A request that was given up stays so. -/
theorem Kept.stand_step (h : t.Kept) (hup : (t.stand id).isGivenUp = true) (hstep : Step t t') :
    t'.stand id = t.stand id := by
  cases hstep with
  | caller hc =>
    obtain ⟨n, l, s, rfl, hm⟩ := h.exists_moves hc
    exact hm.stand_of_isGivenUp hup
  | listener hl =>
    obtain ⟨as, ht⟩ := h.exists_takes hl
    rw [ht.stand]

/-- Answers that were given stay given, and are handed over one after the other. -/
theorem Kept.given_step (h : t.Kept) (hstep : Step t t') :
    t.given <+: t'.given ∧ t.done <+: t'.done := by
  cases hstep with
  | caller hc =>
    obtain ⟨id, l, s, rfl, -⟩ := h.exists_moves hc
    exact ⟨List.prefix_rfl, List.prefix_rfl⟩
  | listener hl =>
    obtain ⟨as, ht⟩ := h.exists_takes hl
    exact ⟨⟨as, ht.given.symm⟩, ht.done⟩

theorem Kept.given_later (h : t.Kept) (hlater : Later t t') :
    t.given <+: t'.given ∧ t.done <+: t'.done := by
  induction hlater with
  | refl => exact ⟨List.prefix_rfl, List.prefix_rfl⟩
  | tail hlater hstep ih =>
    obtain ⟨hgiven, hdone⟩ := (h.later hlater).given_step hstep
    exact ⟨ih.1.trans hgiven, ih.2.trans hdone⟩

/-- A dead link stays dead, and nobody is registered over it any more. -/
theorem Kept.dead_step (h : t.Kept) (hdead : t.link.dead = some why) (hstep : Step t t') :
    t'.link.dead = some why ∧
      ∀ id, (t'.stand id).hasRegistered = true → (t.stand id).hasRegistered = true := by
  cases hstep with
  | caller hc =>
    obtain ⟨id, l, s, rfl, hm⟩ := h.exists_moves hc
    refine ⟨hm.dead.trans hdead, fun n hn => ?_⟩
    by_cases he : n = id
    · subst he
      rw [stand_put] at hn
      rcases hm.registers hn with hold | hnone
      · exact hold
      · rw [hdead] at hnone
        cases hnone
    · rwa [stand_put_of_ne he] at hn
  | listener hl =>
    obtain ⟨as, ht⟩ := h.exists_takes hl
    refine ⟨ht.dead hdead, fun n hn => ?_⟩
    rwa [ht.stand] at hn

theorem Kept.dead_later (h : t.Kept) (hdead : t.link.dead = some why) (hlater : Later t t') :
    t'.link.dead = some why ∧
      ∀ id, (t'.stand id).hasRegistered = true → (t.stand id).hasRegistered = true := by
  induction hlater with
  | refl => exact ⟨hdead, fun _ => id⟩
  | tail hlater hstep ih =>
    obtain ⟨hstill, hback⟩ := (h.later hlater).dead_step ih.1 hstep
    exact ⟨hstill, fun n hn => ih.2 n (hback n hn)⟩

end Switchboard

end XofConformance.Actor
