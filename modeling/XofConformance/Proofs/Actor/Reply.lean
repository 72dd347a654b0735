import XofConformance.Actor.Client
import XofConformance.Proofs.Exchange.Workers
import XofConformance.Proofs.Lists
import XofConformance.Proofs.Number.Words

/-!
# Replies

Which request a line of the actor replies to, what the reply makes of a call, and what a link does
that hears it. An identifier is a key, so a reply names at most one request, in whatever form it
writes the number.

    a call has results if and only if the reply says so         (settle_answerOf_eq_ok_iff)
    a reply to a request that waits answers it and no other     (Link.hear_of_repliesTo)
-/

namespace XofConformance

/-! ## Keys -/

namespace Json

theorem sameKey_int_iff {n : Int} {v : Json} :
    sameKey (.int n) v = true ↔ ∃ m, v.numeric? = some m ∧ m.worth = (Number.int n).worth := by
  unfold sameKey int
  rw [same]
  cases v.numeric? with
  | none => simp
  | some m =>
    simp only [sameNumber, if_true, beq_iff_eq, Option.some.injEq, exists_eq_left']
    exact eq_comm

/-- Whatever is the same key as an integer is a key. -/
theorem isKey_of_sameKey_int {n : Int} {v : Json} (h : sameKey (.int n) v = true) :
    v.isKey = true := by
  obtain ⟨m, hm, -⟩ := sameKey_int_iff.1 h
  cases v with
  | array items => cases hm
  | object fields => cases hm
  | _ => rfl

/-- A value is the same key as one integer at most. -/
theorem sameKey_int_inj {n n' : Int} {v : Json} (h : sameKey (.int n) v = true)
    (h' : sameKey (.int n') v = true) : n = n' := by
  obtain ⟨m, hm, hw⟩ := sameKey_int_iff.1 h
  obtain ⟨m', hm', hw'⟩ := sameKey_int_iff.1 h'
  rw [hm] at hm'
  cases hm'
  rw [hw] at hw'
  unfold Number.worth at hw'
  exact Number.ofInt_inj.1 (Number.Worth.finite.inj hw')

end Json

namespace Actor

/-! ## What a reply says -/

/-- The line is a reply to the request with an identifier. -/
def RepliesTo (id : Nat) (line : Text) : Prop :=
  ∃ reply, Json.read (Text.strip line) = .ok reply ∧
    Json.sameKey (.int id) (reply.field "id") = true

/-- The answer in a line. -/
def answerIn (line : Text) : Answer :=
  match Json.read (Text.strip line) with
  | .ok reply => answerOf reply
  | .error f => .error (.notJson f)

theorem answerIn_of_read {line : Text} {reply : Json}
    (h : Json.read (Text.strip line) = .ok reply) : answerIn line = answerOf reply := by
  unfold answerIn
  rw [h]

theorem decodeAll_eq_ok_iff {ts : List Text} {results : List Bytes} :
    decodeAll ts = .ok results ↔
      List.Forall₂ (fun t b => Bytes.decodeHex t = .ok b) ts results := by
  induction ts generalizing results with
  | nil =>
    unfold decodeAll
    rw [List.forall₂_nil_left_iff, Except.ok.injEq, eq_comm]
  | cons t rest ih =>
    unfold decodeAll
    cases ht : Bytes.decodeHex t with
    | error why => simp [List.forall₂_cons_left_iff, ht]
    | ok b =>
      simp only [List.forall₂_cons_left_iff, ht, ← ih]
      cases decodeAll rest with
      | error why => simp [bind, Except.bind]
      | ok bs =>
        simp only [bind, Except.bind, pure, Except.pure, Except.ok.injEq]
        constructor
        · rintro rfl
          exact ⟨b, bs, rfl, rfl, rfl⟩
        · rintro ⟨b', bs', rfl, rfl, rfl⟩
          rfl

/-- The reply says that the operation was carried out, and its outputs spell byte strings. -/
def Gives (reply : Json) (results : List Bytes) : Prop :=
  reply.field "ok" = .bool true ∧
    ∃ ts, (((reply.field "result").field "outputs").items?).bind texts? = some ts ∧
      List.Forall₂ (fun t b => Bytes.decodeHex t = .ok b) ts results

theorem answerOf_eq_ok_iff {reply : Json} {results : List Bytes} :
    answerOf reply = .ok results ↔ Gives reply results := by
  unfold answerOf Gives
  split
  · next h =>
    simp only [h, true_and]
    unfold outputs
    split
    · next ts hts =>
      rw [decodeAll_eq_ok_iff]
      constructor
      · intro hall
        exact ⟨ts, hts, hall⟩
      · rintro ⟨ts', hts', hall⟩
        rw [hts] at hts'
        cases hts'
        exact hall
    · next hnone =>
      constructor
      · intro he
        cases he
      · rintro ⟨ts, hts, -⟩
        rw [hnone] at hts
        cases hts
  · next hne =>
    constructor
    · intro he
      cases he
    · rintro ⟨hok, -⟩
      exact absurd hok hne

theorem Answer.outcome_eq_ok_iff {a : Answer} {results : List Bytes} :
    Answer.outcome a = .ok results ↔ a = .ok results := by
  cases a with
  | ok rs => exact ⟨fun h => by cases h; rfl, fun h => by cases h; rfl⟩
  | error why => exact ⟨fun h => (by cases h), fun h => (by cases h)⟩

/-- A call has results if and only if the reply gives them and there are as many of them as were
asked for. -/
theorem settle_answerOf_eq_ok_iff {c : Call} {reply : Json} {results : List Bytes} :
    c.settle (Answer.outcome (answerOf reply)) = .ok results ↔
      Gives reply results ∧ (results.length : Int) = c.expected := by
  rw [Call.settle_eq_ok_iff, Answer.outcome_eq_ok_iff, answerOf_eq_ok_iff]

/-- A call without results has failed by the subject. -/
theorem settle_outcome_error {c : Call} {a : Answer} {f : Fault}
    (h : c.settle (Answer.outcome a) = .error f) : ∃ why, f = .subject why := by
  cases a with
  | error why =>
    cases h
    exact ⟨_, rfl⟩
  | ok results =>
    unfold Answer.outcome Call.settle at h
    simp only at h
    split at h
    · cases h
    · cases h
      exact ⟨_, rfl⟩

/-! ## What a link hears -/

namespace Link

variable {l : Link} {id : Nat} {line : Text}

theorem register_of_alive (hw : l.writable = true) (hd : l.dead = none) :
    l.register id = .ok { l with waiting := l.waiting ++ [id] } := by
  unfold register
  rw [hw, hd]
  rfl

/-- A reply is answered to the request that it names, whoever else waits. -/
theorem receive_of_sameKey {reply : Json} (hid : id ∈ l.waiting)
    (hk : Json.sameKey (.int id) (reply.field "id") = true) :
    l.receive reply = (l.withdraw id, [(id, answerOf reply)]) := by
  have hfind : l.waiting.find? (fun (n : Nat) => Json.sameKey (.int n) (reply.field "id")) =
      some id := by
    cases hf : l.waiting.find? (fun (n : Nat) => Json.sameKey (.int n) (reply.field "id")) with
    | none =>
      have hnone := List.find?_eq_none.1 hf id hid
      exact absurd hk hnone
    | some n =>
      have hn := List.find?_some hf
      have heq : (n : Int) = id := Json.sameKey_int_inj hn hk
      rw [Int.ofNat_inj.1 heq]
  unfold receive
  simp only [Json.isKey_of_sameKey_int hk, Bool.not_true, Bool.false_and, Bool.false_eq_true,
    if_false, hfind]

/-- A reply to a request that waits answers it and no other. -/
theorem hear_of_repliesTo (hl : l.listening = true) (hid : id ∈ l.waiting)
    (h : RepliesTo id line) : l.hear line = (l.withdraw id, [(id, answerIn line)]) := by
  obtain ⟨reply, hread, hk⟩ := h
  have hne : (Text.strip line).isEmpty = false := by
    cases hs : Text.strip line with
    | nil =>
      rw [hs] at hread
      cases hread
    | cons c rest => rfl
  rw [answerIn_of_read hread]
  unfold hear
  simp only [hl, hne, hread, Bool.not_true, Bool.or_self, Bool.false_eq_true, if_false]
  exact receive_of_sameKey hid hk

theorem mem_withdraw {n : Nat} : n ∈ (l.withdraw id).waiting ↔ n ∈ l.waiting ∧ n ≠ id := by
  unfold withdraw
  rw [List.mem_filter, bne_iff_ne]

end Link

end Actor

end XofConformance
