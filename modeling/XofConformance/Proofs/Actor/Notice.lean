import Mathlib.Data.List.Nodup
import XofConformance.Proofs.Actor.Reply

/-!
# What a line means

To a link that listens, a line is nothing, or the answer to one request that waits, or the death of
the link; there is nothing else, unless requests wait and a reply names what can be no key. Such a
reply ends the listening, and then the requests wait for ever.

    l.listening = true → l.hear line = l.heed (l.notice line)                  (hear_eq_heed)
    requests wait only as long as somebody listens                            (hear_outcomes)
-/

namespace XofConformance.Actor

/-- The line is no reply, or the identifier in it can be a key. -/
def NamesKey (line : Text) : Prop :=
  ∀ reply, Json.read (Text.strip line) = .ok reply → (reply.field "id").isKey = true

/-- What a line means to a link. -/
inductive Notice
  /-- Nothing. -/
  | blank
  /-- It answers a request that waits. -/
  | answer (id : Nat) (a : Answer)
  /-- It is the death of the link. -/
  | doom (why : ActorFault)
  /-- It names what can be no key, among requests that wait. -/
  | keyless

namespace Link

/-- What a line means to the link. -/
def notice (line : Text) (l : Link) : Notice :=
  if (Text.strip line).isEmpty then .blank
  else match Json.read (Text.strip line) with
    | .error f => .doom (.notJson f)
    | .ok reply =>
      if !(reply.field "id").isKey && !l.waiting.isEmpty then .keyless
      else match l.waiting.find? fun (n : Nat) => Json.sameKey (.int n) (reply.field "id") with
        | some n => .answer n (answerOf reply)
        | none => .doom (.unknownId (reply.field "id"))

/-- What the link does about it. -/
def heed (l : Link) : Notice → Link × Answers
  | .blank => (l, [])
  | .answer id a => (l.withdraw id, [(id, a)])
  | .doom why => l.die why
  | .keyless => (l.deafen, [])

variable {l : Link} {line : Text} {lines : List Text}

theorem hear_eq_heed (hl : l.listening = true) : l.hear line = l.heed (l.notice line) := by
  unfold hear notice
  rw [hl]
  simp only [Bool.not_true, Bool.false_or]
  cases (Text.strip line).isEmpty with
  | true => rfl
  | false =>
    simp only [Bool.false_eq_true, if_false]
    cases Json.read (Text.strip line) with
    | error f => rfl
    | ok reply =>
      simp only [receive]
      cases !(reply.field "id").isKey && !l.waiting.isEmpty with
      | true => rfl
      | false =>
        simp only [Bool.false_eq_true, if_false]
        cases l.waiting.find? fun (n : Nat) => Json.sameKey (.int n) (reply.field "id") <;> rfl

theorem hear_of_deaf (hl : l.listening = false) : l.hear line = (l, []) := by
  unfold hear
  rw [hl]
  rfl

/-! ## Notices -/

theorem keyless_iff {id : Json} :
    (!id.isKey && !l.waiting.isEmpty) = true ↔ id.isKey = false ∧ l.waiting ≠ [] := by
  rw [Bool.and_eq_true, Bool.not_eq_true', Bool.not_eq_true', List.isEmpty_eq_false_iff]

theorem keyed_iff {id : Json} :
    (!id.isKey && !l.waiting.isEmpty) = false ↔ id.isKey = true ∨ l.waiting = [] := by
  rw [Bool.and_eq_false_iff, Bool.not_eq_false', Bool.not_eq_false', List.isEmpty_iff]

/-- The line is the death of the link: it is no JSON, or a reply to no request that waits. What can
be no key is a reply to none as long as none waits. -/
def Rejects (l : Link) (line : Text) (why : ActorFault) : Prop :=
  (∃ f, Text.strip line ≠ [] ∧ Json.read (Text.strip line) = .error f ∧ why = .notJson f) ∨
    ∃ reply, Json.read (Text.strip line) = .ok reply ∧
      ((reply.field "id").isKey = true ∨ l.waiting = []) ∧
      (∀ id ∈ l.waiting, ¬ RepliesTo id line) ∧ why = .unknownId (reply.field "id")

/-- What a line can mean, and what it is like. -/
theorem notice_cases (l : Link) (line : Text) :
    (Text.strip line = [] ∧ l.notice line = .blank) ∨
      (∃ id ∈ l.waiting, RepliesTo id line ∧ l.notice line = .answer id (answerIn line)) ∨
      (∃ why, l.Rejects line why ∧ l.notice line = .doom why) ∨
      (¬ NamesKey line ∧ l.waiting ≠ [] ∧ l.notice line = .keyless) := by
  unfold notice
  cases hs : Text.strip line with
  | nil => exact Or.inl ⟨rfl, rfl⟩
  | cons c rest =>
    refine Or.inr ?_
    simp only [List.isEmpty_cons, Bool.false_eq_true, if_false]
    have hne : Text.strip line ≠ [] := by
      rw [hs]
      exact List.cons_ne_nil c rest
    rw [← hs]
    cases hread : Json.read (Text.strip line) with
    | error f => exact Or.inr (Or.inl ⟨_, Or.inl ⟨f, hne, hread, rfl⟩, rfl⟩)
    | ok reply =>
      simp only
      cases hkeyless : !(reply.field "id").isKey && !l.waiting.isEmpty with
      | true =>
        obtain ⟨hkey, hwait⟩ := keyless_iff.1 hkeyless
        refine Or.inr (Or.inr ⟨fun h => ?_, hwait, rfl⟩)
        rw [h reply hread] at hkey
        cases hkey
      | false =>
        simp only [Bool.false_eq_true, if_false]
        cases hfind : l.waiting.find? fun (n : Nat) =>
          Json.sameKey (.int n) (reply.field "id") with
        | some n =>
          have hsame := List.find?_some hfind
          refine Or.inl ⟨n, List.mem_of_find?_eq_some hfind, ⟨reply, hread, hsame⟩, ?_⟩
          rw [answerIn_of_read hread]
        | none =>
          refine Or.inr (Or.inl ⟨_, Or.inr ⟨reply, hread, keyed_iff.1 hkeyless, ?_, rfl⟩, rfl⟩)
          rintro id hid ⟨reply', hread', hsame⟩
          rw [hread] at hread'
          cases hread'
          exact List.find?_eq_none.1 hfind id hid hsame

theorem notice_eq_doom_iff {why : ActorFault} : l.notice line = .doom why ↔ l.Rejects line why := by
  constructor
  · intro h
    rcases notice_cases l line with ⟨-, he⟩ | ⟨id, -, -, he⟩ | ⟨why', hwhy, he⟩ | ⟨-, -, he⟩ <;>
      rw [he] at h
    · cases h
    · cases h
    · cases h
      exact hwhy
    · cases h
  · have hfilled : Text.strip line ≠ [] → (Text.strip line).isEmpty = false := fun hne =>
      List.isEmpty_eq_false_iff.2 hne
    unfold notice
    rintro (⟨f, hne, hread, rfl⟩ | ⟨reply, hread, hkey, hnone, rfl⟩)
    · simp only [hfilled hne, hread, Bool.false_eq_true, if_false]
    · have hne : Text.strip line ≠ [] := by
        intro hs
        rw [hs] at hread
        cases hread
      have hfind : l.waiting.find? (fun (n : Nat) =>
          Json.sameKey (.int n) (reply.field "id")) = none :=
        List.find?_eq_none.2 fun id hid hsame => hnone id hid ⟨reply, hread, hsame⟩
      simp only [hfilled hne, hread, keyed_iff.2 hkey, hfind, Bool.false_eq_true, if_false]

/-- The death of the link fails the requests that wait, and these only. -/
theorem map_fst_die {why : ActorFault} : (l.die why).2.map Prod.fst = l.waiting := by
  show (l.waiting.map fun id => (id, (.error why : Answer))).map Prod.fst = l.waiting
  rw [List.map_map]
  exact List.map_id _

theorem mem_die {why : ActorFault} {id : Nat} {a : Answer} :
    (id, a) ∈ (l.die why).2 ↔ id ∈ l.waiting ∧ a = .error why := by
  show (id, a) ∈ l.waiting.map (fun id => (id, (.error why : Answer))) ↔ _
  rw [List.mem_map]
  constructor
  · rintro ⟨n, hn, he⟩
    cases he
    exact ⟨hn, rfl⟩
  · rintro ⟨hid, rfl⟩
    exact ⟨id, hid, rfl⟩

/-- Whatever is heard, each request is answered once or goes on waiting. -/
theorem hear_perm (hl : l.listening = true) (hn : l.waiting.Nodup) :
    ((l.hear line).2.map Prod.fst ++ (l.hear line).1.waiting).Perm l.waiting := by
  rw [hear_eq_heed hl]
  rcases notice_cases l line with
    ⟨-, he⟩ | ⟨id, hid, -, he⟩ | ⟨why, -, he⟩ | ⟨-, -, he⟩ <;> rw [he]
  · exact List.Perm.refl _
  · show (id :: l.waiting.filter (· != id)).Perm l.waiting
    rw [← hn.erase_eq_filter]
    exact (List.perm_cons_erase hid).symm
  · show ((l.die why).2.map Prod.fst ++ []).Perm l.waiting
    rw [List.append_nil, map_fst_die]
  · exact List.Perm.refl _

/-- Somebody listens, or the link is dead and nobody waits. -/
def Attended (l : Link) : Prop :=
  l.listening = true ∨ (∃ why, l.dead = some why) ∧ l.waiting = []

theorem hear_attended (hl : l.listening = true) (hline : NamesKey line) :
    (l.hear line).1.Attended := by
  rw [hear_eq_heed hl]
  rcases notice_cases l line with
    ⟨-, he⟩ | ⟨id, -, -, he⟩ | ⟨why, -, he⟩ | ⟨hno, -⟩
  · rw [he]
    exact Or.inl hl
  · rw [he]
    exact Or.inl hl
  · rw [he]
    exact Or.inr ⟨⟨why, rfl⟩, rfl⟩
  · exact absurd hline hno

theorem hearAll_perm (hn : l.waiting.Nodup) :
    ((l.hearAll lines).2.map Prod.fst ++ (l.hearAll lines).1.waiting).Perm l.waiting := by
  induction lines generalizing l with
  | nil => exact List.Perm.refl _
  | cons line rest ih =>
    have hfirst : ((l.hear line).2.map Prod.fst ++ (l.hear line).1.waiting).Perm l.waiting := by
      cases hl : l.listening with
      | true => exact hear_perm hl hn
      | false =>
        rw [hear_of_deaf hl]
        exact List.Perm.refl _
    have hrest := ih (l := (l.hear line).1)
      ((hfirst.nodup_iff.2 hn).sublist (List.sublist_append_right _ _))
    show (((l.hear line).2 ++ ((l.hear line).1.hearAll rest).2).map Prod.fst ++
      ((l.hear line).1.hearAll rest).1.waiting).Perm l.waiting
    rw [List.map_append, List.append_assoc]
    exact (hrest.append_left _).trans hfirst

theorem hearAll_attended (hl : l.Attended) (hlines : ∀ line ∈ lines, NamesKey line) :
    (l.hearAll lines).1.Attended := by
  induction lines generalizing l with
  | nil => exact hl
  | cons line rest ih =>
    have hrest : ∀ line ∈ rest, NamesKey line := fun line' h =>
      hlines line' (List.mem_cons_of_mem _ h)
    show ((l.hear line).1.hearAll rest).1.Attended
    refine ih ?_ hrest
    cases hlistens : l.listening with
    | true => exact hear_attended hlistens (hlines line List.mem_cons_self)
    | false =>
      rw [hear_of_deaf hlistens]
      exact hl

/-! ## Top theorem -/

/-- A link that listens does one of three things with a line: nothing, if it is blank; it answers
the one request that waits for it, and no other; or it dies, and all requests that wait fail with
what is wrong with the line. The one exception is a reply that names what can be no key while
requests wait: it ends the listening and nothing else. So whatever is heard, every request is
answered once or goes on waiting; and as long as no line is such a reply, it waits only if somebody
listens. -/
theorem hear_outcomes {l : Link} (hl : l.listening = true) (hn : l.waiting.Nodup) :
    (∀ line, (Text.strip line = [] ∧ l.hear line = (l, [])) ∨
      (∃ id ∈ l.waiting, RepliesTo id line ∧
        l.hear line = (l.withdraw id, [(id, answerIn line)])) ∨
      (∃ why, l.Rejects line why ∧ l.hear line =
        ({ l with dead := some why, waiting := [], listening := false },
          l.waiting.map fun id => (id, .error why))) ∨
      (¬ NamesKey line ∧ l.waiting ≠ [] ∧ l.hear line = ({ l with listening := false }, []))) ∧
    ∀ lines, ((l.hearAll lines).2.map Prod.fst ++ (l.hearAll lines).1.waiting).Perm l.waiting ∧
      ((∀ line ∈ lines, NamesKey line) → (l.hearAll lines).1.listening = true ∨
        (∃ why, (l.hearAll lines).1.dead = some why) ∧ (l.hearAll lines).1.waiting = []) := by
  refine ⟨fun line => ?_, fun lines => ⟨hearAll_perm hn, hearAll_attended (Or.inl hl)⟩⟩
  rw [hear_eq_heed hl]
  rcases notice_cases l line with
    ⟨hs, he⟩ | ⟨id, hid, hreplies, he⟩ | ⟨why, hwhy, he⟩ | ⟨hno, hwait, he⟩
  · exact Or.inl ⟨hs, by rw [he]; rfl⟩
  · exact Or.inr (Or.inl ⟨id, hid, hreplies, by rw [he]; rfl⟩)
  · exact Or.inr (Or.inr (Or.inl ⟨why, hwhy, by rw [he]; rfl⟩))
  · exact Or.inr (Or.inr (Or.inr ⟨hno, hwait, by rw [he]; rfl⟩))

/-- A link over which one request waits. -/
def waitingForOne : Link := { lastId := 1, waiting := [1] }

/-- A blank line and one that is no JSON: the request fails, and nobody waits any more. -/
theorem waitingForOne_outcomes :
    let r := waitingForOne.hearAll [" ", "x"]
    (r.2.map Prod.fst ++ r.1.waiting).Perm [1] ∧
      (r.1.listening = true ∨ (∃ why, r.1.dead = some why) ∧ r.1.waiting = []) := by
  have hunread : ∀ line ∈ ([" ", "x"] : List Text),
      (Json.read (Text.strip line)).toOption.isNone = true := by
    decide +kernel
  have hkeys : ∀ line ∈ ([" ", "x"] : List Text), NamesKey line := by
    intro line hline reply hread
    have hnone := hunread line hline
    rw [hread] at hnone
    cases hnone
  have houtcomes := (hear_outcomes (l := waitingForOne) rfl (List.nodup_singleton 1)).2 [" ", "x"]
  exact ⟨houtcomes.1, houtcomes.2 hkeys⟩

/-- A reply that names an array where the identifier stands ends the listening. The request goes on
waiting, unanswered, over a link that is not dead. -/
theorem waitingForOne_unattended :
    let r := waitingForOne.hear
      "\x7b\"id\":[1],\"ok\":true,\"result\":\x7b\"outputs\":[\"aa\"]\x7d\x7d"
    r.1.listening = false ∧ r.1.dead.isNone = true ∧ r.1.waiting = [1] ∧ r.2.length = 0 := by
  decide +kernel

end Link

end XofConformance.Actor
