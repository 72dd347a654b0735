import Mathlib.Data.List.Nodup
import XofConformance.Proofs.Actor.Traffic

/-!
# Sound traffic

What is known of all traffic that can come about, as long as every reply of the actor names the
request that it replies to: the link stays alive, every request has an identifier of its own, and
a caller that has ended has the answer in the reply to its own request. Each step keeps that.

    Reached actor t → t.Sound actor                                        (Reached.sound)
-/

namespace XofConformance.Actor.Traffic

variable {actor : Behaviour} {t t' : Traffic} {i id : Nat} {c : Caller}

/-! ## What is known of all traffic -/

/-- Identifiers are taken in turn, each by one caller. -/
structure Numbered (callers : List Caller) (last : Nat) : Prop where
  apart {i j id : Nat} {c d : Caller} : callers[i]? = some c → callers[j]? = some d →
    c.stage.id? = some id → d.stage.id? = some id → i = j
  taken {i id : Nat} {c : Caller} : callers[i]? = some c → c.stage.id? = some id → id ≤ last

/-- What a caller can rely on at its stage. -/
def Placed (t : Traffic) (c : Caller) : Prop :=
  match c.stage with
  | .fresh | .named _ => True
  | .registered id => id ∈ t.link.waiting
  | .written id => ⟨id, c.call⟩ ∈ t.requests
  | .ended id a => ∃ line, ⟨⟨id, c.call⟩, line⟩ ∈ t.heard ∧ a = answerIn line

/-- The link is alive, every request was written once by the caller whose identifier it has, those
that are not answered wait, and every caller is where it should be. -/
structure Sound (actor : Behaviour) (t : Traffic) : Prop where
  alive : t.link.dead = none
  listening : t.link.listening = true
  writable : t.link.writable = true
  numbered : Numbered t.callers t.link.lastId
  once : (t.requests.map Request.id).Nodup
  known : ∀ r ∈ t.requests, ∃ c ∈ t.callers, c.stage.sent? = some r.id
  pending : ∀ r ∈ t.inbox ++ t.outbox.map Reply.request, r.id ∈ t.link.waiting
  truthful : ∀ r ∈ t.outbox ++ t.heard, actor (requestLine r.request.id r.request.call) r.line
  recorded : t.answers = t.heard.map fun r => (r.request.id, answerIn r.line)
  placed : ∀ c ∈ t.callers, t.Placed c

/-! ## Numbers -/

section

variable {callers : List Caller} {last last' : Nat} {d : Caller}

theorem Numbered.enter (h : Numbered callers last) (call : Call) :
    Numbered (callers ++ [⟨call, .fresh⟩]) last where
  apart hj hk hb hd := by
    rcases getElem?_concat_cases hj with rfl | hj'
    · cases hb
    · rcases getElem?_concat_cases hk with rfl | hk'
      · cases hd
      · exact h.apart hj' hk' hb hd
  taken hj hb := by
    rcases getElem?_concat_cases hj with rfl | hj'
    · cases hb
    · exact h.taken hj' hb

/-- A caller may take another stage if its identifier there is nobody else's. -/
theorem Numbered.set (h : Numbered callers last) (hle : last ≤ last')
    (hnew : ∀ {id}, d.stage.id? = some id → id ≤ last' ∧
      ∀ j e, j ≠ i → callers[j]? = some e → e.stage.id? ≠ some id) :
    Numbered (callers.set i d) last' where
  apart hj hk hb he := by
    rcases getElem?_set_cases hj with ⟨rfl, rfl⟩ | ⟨hji, hj'⟩
    · rcases getElem?_set_cases hk with ⟨rfl, -⟩ | ⟨hki, hk'⟩
      · rfl
      · exact absurd he ((hnew hb).2 _ _ hki hk')
    · rcases getElem?_set_cases hk with ⟨rfl, rfl⟩ | ⟨-, hk'⟩
      · exact absurd hb ((hnew he).2 _ _ hji hj')
      · exact h.apart hj' hk' hb he
  taken hj hb := by
    rcases getElem?_set_cases hj with ⟨rfl, rfl⟩ | ⟨-, hj'⟩
    · exact (hnew hb).1
    · exact Nat.le_trans (h.taken hj' hb) hle

/-- A caller keeps its identifier. -/
theorem Numbered.move (h : Numbered callers last) (hi : callers[i]? = some c)
    (hd : d.stage.id? = c.stage.id?) : Numbered (callers.set i d) last := by
  refine h.set (Nat.le_refl _) fun {id} hid => ?_
  rw [hd] at hid
  exact ⟨h.taken hi hid, fun j e hj he hid' => hj (h.apart he hi hid' hid)⟩

/-- The next identifier is nobody's. -/
theorem Numbered.take (h : Numbered callers last) :
    Numbered (callers.set i (c.at_ (.named (last + 1)))) (last + 1) := by
  refine h.set (Nat.le_succ _) fun {id} hid => ?_
  cases hid
  refine ⟨Nat.le_refl _, fun j e _ he hid' => ?_⟩
  have hle := h.taken he hid'
  omega

/-- Whoever has written a request has written it still after a caller has taken a step. -/
theorem known_set {rs : List Request} (h : ∀ r ∈ rs, ∃ c ∈ callers, c.stage.sent? = some r.id)
    (hi : callers[i]? = some c) (hd : ∀ {id}, c.stage.sent? = some id → d.stage.sent? = some id) :
    ∀ r ∈ rs, ∃ e ∈ callers.set i d, e.stage.sent? = some r.id := by
  intro r hr
  obtain ⟨e, he, hid⟩ := h r hr
  by_cases hec : e = c
  · subst hec
    obtain ⟨hlt, -⟩ := List.getElem?_eq_some_iff.1 hi
    exact ⟨d, List.mem_set hlt d, hd hid⟩
  · exact ⟨e, mem_set_of_ne hi he hec, hid⟩

end

/-! ## What a step keeps -/

/-- A caller that rests is where it should be if nothing it relies on is taken away. -/
theorem Placed.later (h : t.Placed c)
    (hw : ∀ {id}, c.stage = .registered id → id ∈ t.link.waiting → id ∈ t'.link.waiting)
    (hr : ∀ r ∈ t.requests, r ∈ t'.requests) (hh : ∀ r ∈ t.heard, r ∈ t'.heard) :
    t'.Placed c := by
  unfold Placed at h ⊢
  cases hs : c.stage with
  | fresh => trivial
  | named id => trivial
  | registered id =>
    rw [hs] at h
    exact hw hs h
  | written id =>
    rw [hs] at h
    exact hr _ h
  | ended id a =>
    rw [hs] at h
    obtain ⟨line, hl, ha⟩ := h
    exact ⟨line, hh _ hl, ha⟩

/-- Callers are where they should be after one of them has taken a step, if it is itself and
nothing the others rely on is taken away. -/
theorem placed_set {d : Caller} (h : ∀ c ∈ t.callers, t.Placed c)
    (hw : ∀ id ∈ t.link.waiting, id ∈ t'.link.waiting) (hr : ∀ r ∈ t.requests, r ∈ t'.requests)
    (hh : ∀ r ∈ t.heard, r ∈ t'.heard) (hd : t'.Placed d) :
    ∀ c ∈ t.callers.set i d, t'.Placed c := by
  intro e he
  rcases List.mem_or_eq_of_mem_set he with hm | rfl
  · exact (h e hm).later (fun _ hid => hw _ hid) hr hh
  · exact hd

theorem Sound.enter (h : t.Sound actor) (call : Call) : (t.enter call).Sound actor :=
  { h with
    numbered := h.numbered.enter call
    known := fun r hr => by
      obtain ⟨c, hc, hid⟩ := h.known r hr
      exact ⟨c, List.mem_append_left _ hc, hid⟩
    placed := fun c hc => by
      rcases List.mem_append.1 hc with hc | hc
      · exact (h.placed c hc).later (fun _ hw => hw) (fun _ hr => hr) (fun _ hr => hr)
      · rw [List.mem_singleton.1 hc]
        trivial }

theorem Sound.take (h : t.Sound actor) (hi : t.callers[i]? = some c) (hs : c.stage = .fresh) :
    Sound actor { t with
      link := t.link.take.2
      callers := t.callers.set i (c.at_ (.named t.link.take.1)) } :=
  { h with
    numbered := h.numbered.take
    known := known_set h.known hi fun hid => by
      rw [hs] at hid
      cases hid
    placed := placed_set h.placed (fun _ hw => hw) (fun _ hr => hr) (fun _ hh => hh) trivial }

theorem Sound.register {link : Link} (h : t.Sound actor) (hi : t.callers[i]? = some c)
    (hs : c.stage = .named id) (hl : t.link.register id = .ok link) :
    Sound actor { t with link, callers := t.callers.set i (c.at_ (.registered id)) } := by
  rw [Link.register_of_alive h.writable h.alive] at hl
  cases hl
  exact
    { h with
      numbered := h.numbered.move hi (by rw [hs]; rfl)
      known := known_set h.known hi fun hid => by
        rw [hs] at hid
        cases hid
      pending := fun r hr => List.mem_append_left _ (h.pending r hr)
      placed := placed_set h.placed (fun _ hw => List.mem_append_left _ hw) (fun _ hr => hr)
        (fun _ hh => hh) (List.mem_append_right _ (List.mem_singleton.2 rfl)) }

/-- A caller that has written nothing has an identifier that no request has. -/
theorem Sound.unsent (h : t.Sound actor) (hi : t.callers[i]? = some c)
    (hid : c.stage.id? = some id) (hs : c.stage.sent? = none) {r : Request}
    (hr : r ∈ t.requests) : r.id ≠ id := by
  rintro rfl
  obtain ⟨d, hd, hsent⟩ := h.known r hr
  obtain ⟨j, hj⟩ := List.mem_iff_getElem?.1 hd
  have hji : j = i := h.numbered.apart hj hi (Stage.id?_of_sent? hsent) hid
  rw [hji, hi] at hj
  cases hj
  rw [hs] at hsent
  cases hsent

/-- There is one request to an identifier. -/
theorem Sound.eq_of_id (h : t.Sound actor) {r r' : Request} (hr : r ∈ t.requests)
    (hr' : r' ∈ t.requests) (hid : r.id = r'.id) : r = r' :=
  List.inj_on_of_nodup_map h.once hr hr' hid

theorem Sound.write (h : t.Sound actor) (hi : t.callers[i]? = some c)
    (hs : c.stage = .registered id) :
    Sound actor { t with
      callers := t.callers.set i (c.at_ (.written id))
      inbox := t.inbox ++ [{ id, call := c.call }] } := by
  have hperm : (t.inbox ++ [(⟨id, c.call⟩ : Request)] ++ t.outbox.map Reply.request ++
      t.heard.map Reply.request).Perm (⟨id, c.call⟩ :: t.requests) := by
    unfold requests
    simp only [List.append_assoc, List.singleton_append]
    exact List.perm_middle
  have hwaits : id ∈ t.link.waiting := by
    have hp := h.placed c (List.mem_of_getElem? hi)
    rw [Placed, hs] at hp
    exact hp
  have hunsent : ∀ r ∈ t.requests, r.id ≠ id := fun r hr =>
    h.unsent hi (by rw [hs]; rfl) (by rw [hs]; rfl) hr
  obtain ⟨hlt, -⟩ := List.getElem?_eq_some_iff.1 hi
  exact
    { h with
      numbered := h.numbered.move hi (by rw [hs]; rfl)
      once := by
        refine (hperm.map Request.id).nodup_iff.2 (List.nodup_cons.2 ⟨fun hm => ?_, h.once⟩)
        obtain ⟨r, hr, he⟩ := List.mem_map.1 hm
        exact hunsent r hr he
      known := fun r hr => by
        rcases List.mem_cons.1 (hperm.mem_iff.1 hr) with rfl | hr
        · exact ⟨c.at_ (.written id), List.mem_set hlt _, rfl⟩
        · refine known_set h.known hi (fun hid => ?_) r hr
          rw [hs] at hid
          cases hid
      pending := fun r hr => by
        rcases List.mem_append.1 hr with hr | hr
        · rcases List.mem_append.1 hr with hr | hr
          · exact h.pending r (List.mem_append_left _ hr)
          · rw [List.mem_singleton.1 hr]
            exact hwaits
        · exact h.pending r (List.mem_append_right _ hr)
      placed := placed_set h.placed (fun _ hw => hw)
        (fun _ hr => hperm.mem_iff.2 (List.mem_cons_of_mem _ hr)) (fun _ hh => hh)
        (hperm.mem_iff.2 List.mem_cons_self) }

theorem Sound.answer {before after : List Request} {r : Request} {line : Text}
    (h : t.Sound actor) (hb : t.inbox = before ++ r :: after)
    (ha : actor (requestLine r.id r.call) line) :
    Sound actor { t with
      inbox := before ++ after, outbox := t.outbox ++ [{ request := r, line }] } := by
  have hperm : (before ++ after ++ (t.outbox ++ [(⟨r, line⟩ : Reply)]).map Reply.request ++
      t.heard.map Reply.request).Perm t.requests := by
    unfold requests
    rw [hb]
    simp only [List.append_assoc, List.cons_append, List.map_append, List.map_cons, List.map_nil,
      List.nil_append]
    rw [← List.append_assoc after, ← List.append_assoc before]
    refine List.perm_middle.trans ?_
    simp only [List.append_assoc]
    exact List.perm_middle.symm
  have hin : ∀ r' ∈ before ++ after, r' ∈ t.inbox := by
    intro r' hr'
    rw [hb]
    rcases List.mem_append.1 hr' with hr' | hr'
    · exact List.mem_append_left _ hr'
    · exact List.mem_append_right _ (List.mem_cons_of_mem _ hr')
  have hr : r ∈ t.inbox := by
    rw [hb]
    exact List.mem_append_right _ List.mem_cons_self
  exact
    { h with
      once := (hperm.map Request.id).nodup_iff.2 h.once
      known := fun r hr => h.known r (hperm.mem_iff.1 hr)
      pending := fun r' hr' => by
        rcases List.mem_append.1 hr' with hr' | hr'
        · exact h.pending r' (List.mem_append_left _ (hin r' hr'))
        · rw [List.map_append] at hr'
          rcases List.mem_append.1 hr' with hr' | hr'
          · exact h.pending r' (List.mem_append_right _ hr')
          · rw [List.mem_singleton.1 hr']
            exact h.pending r (List.mem_append_left _ hr)
      truthful := fun r' hr' => by
        rcases List.mem_append.1 hr' with hr' | hr'
        · rcases List.mem_append.1 hr' with hr' | hr'
          · exact h.truthful r' (List.mem_append_left _ hr')
          · rw [List.mem_singleton.1 hr']
            exact ha
        · exact h.truthful r' (List.mem_append_right _ hr')
      placed := fun c hc => (h.placed c hc).later (fun _ hw => hw)
        (fun _ hr => hperm.mem_iff.2 hr) (fun _ hr => hr) }

/-- The request of the reply that is heard next, put before all others. -/
theorem requests_perm {r : Reply} {rest : List Reply} (hb : t.outbox = r :: rest) :
    t.requests.Perm
      (r.request :: (t.inbox ++ rest.map Reply.request ++ t.heard.map Reply.request)) := by
  unfold requests
  rw [hb]
  simp only [List.map_cons, List.append_assoc, List.cons_append]
  exact List.perm_middle

/-- No other request has the identifier of the reply that is heard next. -/
theorem Sound.ne_next {r : Reply} {rest : List Reply} (h : t.Sound actor)
    (hb : t.outbox = r :: rest) {other : Request}
    (ho : other ∈ t.inbox ++ rest.map Reply.request) : other.id ≠ r.request.id := by
  have hnd := h.once
  rw [((requests_perm hb).map Request.id).nodup_iff, List.map_cons, List.nodup_cons] at hnd
  intro he
  exact hnd.1 (he ▸ List.mem_map_of_mem (List.mem_append_left _ ho))

/-- The reply that is heard next is given to the request that it replies to. -/
theorem Sound.hear_next {r : Reply} {rest : List Reply} (hactor : Replies actor)
    (h : t.Sound actor) (hb : t.outbox = r :: rest) :
    t.link.hear r.line =
      (t.link.withdraw r.request.id, [(r.request.id, answerIn r.line)]) := by
  have hout : r ∈ t.outbox := by
    rw [hb]
    exact List.mem_cons_self
  have hwaits : r.request.id ∈ t.link.waiting :=
    h.pending r.request (List.mem_append_right _ (List.mem_map_of_mem hout))
  exact Link.hear_of_repliesTo h.listening hwaits
    (hactor (h.truthful r (List.mem_append_left _ hout)))

theorem Sound.hear {r : Reply} {rest : List Reply} (hactor : Replies actor) (h : t.Sound actor)
    (hb : t.outbox = r :: rest) :
    Sound actor { t with
      link := (t.link.hear r.line).1
      outbox := rest
      heard := t.heard ++ [r]
      answers := t.answers ++ (t.link.hear r.line).2 } := by
  have hperm : (t.inbox ++ rest.map Reply.request ++ (t.heard ++ [r]).map Reply.request).Perm
      t.requests := by
    refine List.Perm.trans ?_ (requests_perm hb).symm
    rw [List.map_append, ← List.append_assoc]
    exact List.perm_append_singleton _ _
  rw [h.hear_next hactor hb]
  exact
    { alive := h.alive
      listening := h.listening
      writable := h.writable
      numbered := h.numbered
      once := (hperm.map Request.id).nodup_iff.2 h.once
      known := fun r' hr' => h.known r' (hperm.mem_iff.1 hr')
      pending := fun r' hr' => by
        refine Link.mem_withdraw.2 ⟨h.pending r' ?_, h.ne_next hb hr'⟩
        rw [hb, List.map_cons]
        rcases List.mem_append.1 hr' with hr' | hr'
        · exact List.mem_append_left _ hr'
        · exact List.mem_append_right _ (List.mem_cons_of_mem _ hr')
      truthful := fun r' hr' => by
        refine h.truthful r' ?_
        rw [hb]
        rw [← List.append_assoc, List.mem_append, List.mem_singleton] at hr'
        rcases hr' with hr' | rfl
        · exact List.mem_cons_of_mem _ hr'
        · exact List.mem_cons_self
      recorded := by rw [h.recorded, List.map_append, List.map_singleton]
      placed := fun c hc => by
        obtain ⟨i, hi⟩ := List.mem_iff_getElem?.1 hc
        refine (h.placed c hc).later (fun hs hw => ?_) (fun _ hr => hperm.mem_iff.2 hr)
          (fun _ hr => List.mem_append_left _ hr)
        have hne : r.request.id ≠ _ := h.unsent hi (by rw [hs]; rfl) (by rw [hs]; rfl)
          ((requests_perm hb).mem_iff.2 List.mem_cons_self)
        exact Link.mem_withdraw.2 ⟨hw, Ne.symm hne⟩ }

/-- What a caller wakes up to is the answer in the reply to its own request. -/
theorem Sound.own {a : Answer} (h : t.Sound actor) (hc : c ∈ t.callers)
    (hs : c.stage = .written id) (ha : t.answers.lookup id = some a) :
    ∃ line, ⟨⟨id, c.call⟩, line⟩ ∈ t.heard ∧ a = answerIn line := by
  have hown : ⟨id, c.call⟩ ∈ t.requests := by
    have hp := h.placed c hc
    rw [Placed, hs] at hp
    exact hp
  have hmem : (id, a) ∈ t.answers := by
    obtain ⟨before, after, he, -⟩ := List.lookup_eq_some_iff.1 ha
    rw [he]
    exact List.mem_append_right _ List.mem_cons_self
  rw [h.recorded] at hmem
  obtain ⟨r, hr, he⟩ := List.mem_map.1 hmem
  have hreq : r.request ∈ t.requests := List.mem_append_right _ (List.mem_map_of_mem hr)
  cases he
  have heq : r.request = ⟨r.request.id, c.call⟩ := h.eq_of_id hreq hown rfl
  refine ⟨r.line, ?_, rfl⟩
  rw [← heq]
  exact hr

theorem Sound.wake {a : Answer} (h : t.Sound actor) (hi : t.callers[i]? = some c)
    (hs : c.stage = .written id) (ha : t.answers.lookup id = some a) :
    Sound actor { t with callers := t.callers.set i (c.at_ (.ended id a)) } := by
  have hown := h.own (List.mem_of_getElem? hi) hs ha
  exact { h with
    numbered := h.numbered.move hi (by rw [hs]; rfl)
    known := known_set h.known hi fun hid => by
      rw [hs] at hid
      exact hid
    placed := placed_set h.placed (fun _ hw => hw) (fun _ hr => hr) (fun _ hh => hh) hown }

theorem Sound.move (hactor : Replies actor) (h : t.Sound actor) (hm : Move actor t t') :
    t'.Sound actor := by
  cases hm with
  | take hi hs => exact h.take hi hs
  | register hi hs hl => exact h.register hi hs hl
  | refused hi hs hl =>
    rw [Link.register_of_alive h.writable h.alive] at hl
    cases hl
  | write hi hs => exact h.write hi hs
  | answer hb ha => exact h.answer hb ha
  | hear hb => exact h.hear hactor hb
  | wake hi hs ha => exact h.wake hi hs ha

theorem Sound.step (hactor : Replies actor) (h : t.Sound actor) (hs : Step actor t t') :
    t'.Sound actor := by
  cases hs with
  | move hm => exact h.move hactor hm
  | enter call => exact h.enter call

theorem Sound.steps (hactor : Replies actor) (h : t.Sound actor)
    (hs : Relation.ReflTransGen (Step actor) t t') : t'.Sound actor := by
  induction hs with
  | refl => exact h
  | tail _ hstep ih => exact ih.step hactor hstep

/-- Traffic without callers. -/
theorem sound_empty : Sound actor {} where
  alive := rfl
  listening := rfl
  writable := rfl
  numbered := ⟨fun hi _ _ _ => (by cases hi), fun hi _ => (by cases hi)⟩
  once := List.nodup_nil
  known := fun r hr => by cases hr
  pending := fun r hr => by cases hr
  truthful := fun r hr => by cases hr
  recorded := rfl
  placed := fun c hc => by cases hc

theorem Reached.sound (hactor : Replies actor) (h : Reached actor t) : t.Sound actor :=
  sound_empty.steps hactor h

end XofConformance.Actor.Traffic
