import XofConformance.Proofs.Actor.Notice
import XofConformance.Proofs.Json.Files

/-!
# Messages on the wire

Nothing is lost between the two ends. A request is one line, and what is read from it is the object
that was written: it names the identifier, the operation and how many results are expected, and its
digits spell the arguments. A reply is heard whatever blanks end its line; its outputs are the byte
strings that they spell, in either case, or else the call has failed.

    op of scalar values → Json.read (requestLine id c) = .ok (request id c)    (read_requestLine)
    Asks (request id c) id c                                                   (asks_request)
    Tells (outputsIn reply) (Answer.outcome (outputs reply))                   (tells_outputs)
-/

namespace XofConformance

/-! ## Texts between blanks -/

namespace Text

variable {p : CodePoint → Bool} {c opening closing : CodePoint} {t after : Text}

theorem dropEndWhile_append (h : ∀ c ∈ after, p c = true) :
    dropEndWhile p (t ++ after) = dropEndWhile p t := by
  have hreverse : ∀ c ∈ after.reverse, p c = true := fun c hc => h c (List.mem_reverse.1 hc)
  unfold dropEndWhile
  rw [List.reverse_append, List.dropWhile_append_of_pos hreverse]

theorem dropEndWhile_concat (h : p c = false) : dropEndWhile p (t ++ [c]) = t ++ [c] := by
  unfold dropEndWhile
  simp [h]

/-- Blanks after a text that begins and ends with none are stripped, and nothing else. -/
theorem strip_enclosed (hopening : isBlank opening = false) (hclosing : isBlank closing = false)
    (hafter : ∀ c ∈ after, isBlank c = true) :
    strip (opening :: (t ++ [closing]) ++ after) = opening :: (t ++ [closing]) := by
  have hfirst : ¬ isBlank opening = true := by simp [hopening]
  unfold strip trim
  rw [List.cons_append, List.dropWhile_cons_of_neg hfirst, ← List.cons_append,
    dropEndWhile_append hafter, ← List.cons_append, dropEndWhile_concat hclosing]

/-- The text is one line: it ends with a line feed and has no other. -/
def IsLine (t : Text) : Prop := ∃ body, t = body ++ [0x0A] ∧ 0x0A ∉ body

end Text

namespace Json

variable {style : Style} {fields : List (Text × Json)} {after : Text}

theorem exists_write_object (style : Style) (fields : List (Text × Json)) :
    ∃ t, write style (.object fields) = 0x7B :: (t ++ [0x7D]) := by
  unfold write
  rw [writeAt]
  by_cases hempty : writeFields style (0 + 1) fields = []
  · rw [hempty]
    exact ⟨[], rfl⟩
  · rw [enclose_eq hempty]
    refine ⟨style.lineBreak 1 ++ (Text.join (0x2C :: style.partGap 0)
      (writeFields style 1 fields) ++ style.lineBreak 0), ?_⟩
    simp

/-- An object that comes back is read from a line that begins with what it is written as, if only
blanks come after that. -/
theorem Faithful.read_strip (h : Faithful (.object fields)) (hstyle : style.IsBlank)
    (hafter : ∀ c ∈ after, Text.isBlank c = true) :
    read (Text.strip (write style (.object fields) ++ after)) = .ok (.object fields) := by
  have hread := h.read_write hstyle isBlank_nil
  obtain ⟨t, ht⟩ := exists_write_object style fields
  rw [List.append_nil, ht] at hread
  rw [ht, Text.strip_enclosed (by decide) (by decide) hafter, hread]

end Json

namespace Actor

open Json (Faithful)

variable {id : Nat} {c : Call} {v : Json}

/-! ## Requests -/

theorem faithful_toHex (b : Bytes) : Faithful (.text b.toHex) :=
  Json.faithful_text fun _ hc => Text.isScalar_of_lt (Bytes.isPlain_of_mem_toHex hc).lt

theorem faithful_request (hop : ∀ ch ∈ c.op, Text.IsScalar ch) (id : Nat) :
    Faithful (request id c) := by
  have hargs : Faithful (.array (c.args.map fun a => .text a.toHex)) :=
    Json.faithful_array (List.forall_mem_map.2 fun a _ => faithful_toHex a)
  have hparams : Faithful (.object
      [("args", .array (c.args.map fun a => .text a.toHex)), ("expect", .int c.expected)]) := by
    refine Json.faithful_object ["args", "expect"] rfl (by decide) (by decide) ?_
    rw [List.forall_mem_cons, List.forall_mem_singleton]
    exact ⟨hargs, Json.faithful_int _⟩
  refine Json.faithful_object ["id", "op", "params"] rfl (by decide) (by decide) ?_
  rw [List.forall_mem_cons, List.forall_mem_cons, List.forall_mem_singleton]
  exact ⟨Json.faithful_int _, Json.faithful_text hop, hparams⟩

/-- What is read from the line of a request is the object that was written. -/
theorem read_requestLine (hop : ∀ ch ∈ c.op, Text.IsScalar ch) :
    Json.read (requestLine id c) = .ok (request id c) :=
  (faithful_request hop id).read_write Json.isBlank_compact (List.forall_mem_singleton.2 rfl)

/-- A request is one line, whatever the operation is called. -/
theorem isLine_requestLine : (requestLine id c).IsLine := by
  -- what the operation is called is escaped, and the style puts nothing between the parts
  have hcompact : Json.compact.Keeps Text.IsPlain := ⟨nofun, nofun, fun _ => nofun⟩
  have hplain := Json.forall_mem_writeAt (fun _ h => h) hcompact 0 (request id c)
  refine ⟨_, rfl, fun hbreak => ?_⟩
  exact absurd (hplain _ hbreak) (by decide)

/-- The value asks for the call under the identifier: its digits spell the arguments, in order. -/
structure Asks (v : Json) (id : Nat) (c : Call) : Prop where
  id_eq : v.field "id" = .int id
  op_eq : v.field "op" = .text c.op
  expect_eq : (v.field "params").field "expect" = .int c.expected
  args_eq : ∃ ts : List Text, (v.field "params").field "args" = .array (ts.map .text) ∧
    List.Forall₂ (fun t b => Bytes.decodeHex t = .ok b) ts c.args

theorem asks_request (id : Nat) (c : Call) : Asks (request id c) id c := by
  refine ⟨rfl, rfl, rfl, c.args.map Bytes.toHex, ?_, ?_⟩
  · rw [List.map_map]
    rfl
  · rw [List.forall₂_map_left_iff, List.forall₂_same]
    exact fun b _ => Bytes.decodeHex_eq_ok_iff.2 (Bytes.ofHex_toHex b)

/-! ## Outputs -/

section

variable {items : List Json} {ts : List Text} {bs : List Bytes} {reply : Json} {a : Answer}

/-- What stands where a reply has its outputs. -/
def outputsIn (reply : Json) : Json := (reply.field "result").field "outputs"

theorem texts?_eq_some_iff : texts? items = some ts ↔ items = ts.map .text := by
  induction items generalizing ts with
  | nil => cases ts <;> simp [texts?]
  | cons v rest ih =>
    cases v with
    | text t =>
      cases ts with
      | nil => simp [texts?]
      | cons t' ts => simp [texts?, ih, and_comm]
    | _ => cases ts <;> simp [texts?]

/-- The outputs are read as texts if and only if they are a list of texts. -/
theorem items?_bind_texts?_eq_some_iff : v.items?.bind texts? = some ts ↔
    v = .array (ts.map .text) := by
  cases v with
  | array items => simp [Json.items?, texts?_eq_some_iff]
  | _ => simp [Json.items?]

/-- Texts are refused for their digits only. -/
theorem decodeAll_error {f : ActorFault} (h : decodeAll ts = .error f) :
    ∃ why, f = .badOutput why := by
  induction ts with
  | nil => cases h
  | cons t rest ih =>
    unfold decodeAll at h
    split at h
    · next why _ =>
      cases h
      exact ⟨why, rfl⟩
    · cases hrest : decodeAll rest with
      | ok bs =>
        rw [hrest] at h
        cases h
      | error f' =>
        rw [hrest] at h
        cases h
        exact ih hrest

theorem spelledBy_of_decodeAll (h : decodeAll ts = .ok bs) {t : Text} (ht : t ∈ ts) :
    ∃ b, Bytes.SpelledBy b t := by
  obtain ⟨b, -, hb⟩ := exists_right_of_forall₂ (decodeAll_eq_ok_iff.1 h) ht
  exact ⟨b, Bytes.decodeHex_iff.1 hb⟩

/-- What a call comes to, told by the outputs of its reply: the byte strings that they spell, or a
failure of the subject if they are no list of texts or one of the texts spells nothing. -/
structure Tells (v : Json) (o : Outcome) : Prop where
  spelled : ∀ (bs : List Bytes) (ts : List Text), v = .array (ts.map .text) →
    List.Forall₂ Bytes.SpelledBy bs ts → o = .ok bs
  missing : (∀ items, v = .array items → ∃ w ∈ items, w.text? = none) →
    o = .error (.subject (.actor .noOutputs))
  malformed : ∀ ts : List Text, v = .array (ts.map .text) → ∀ t ∈ ts, (∀ b, ¬ Bytes.SpelledBy b t) →
    ∃ why, o = .error (.subject (.actor (.badOutput why)))

theorem outputs_of_texts (h : outputsIn reply = .array (ts.map .text)) :
    outputs reply = decodeAll ts := by
  have htexts : ((reply.field "result").field "outputs").items?.bind texts? = some ts :=
    items?_bind_texts?_eq_some_iff.2 h
  unfold outputs
  rw [htexts]

theorem tells_outputs (reply : Json) : Tells (outputsIn reply) (Answer.outcome (outputs reply)) where
  spelled bs ts hv hall := by
    have hdecode : decodeAll ts = .ok bs :=
      decodeAll_eq_ok_iff.2 (hall.flip.imp fun _ _ hb => Bytes.decodeHex_iff.2 hb)
    rw [outputs_of_texts hv, hdecode]
    rfl
  missing hmissing := by
    have hnone : ((reply.field "result").field "outputs").items?.bind texts? = none := by
      rw [Option.eq_none_iff_forall_ne_some]
      intro ts hts
      obtain ⟨w, hw, hno⟩ := hmissing _ (items?_bind_texts?_eq_some_iff.1 hts)
      obtain ⟨t, -, rfl⟩ := List.mem_map.1 hw
      cases hno
    unfold outputs
    rw [hnone]
    rfl
  malformed ts hv t ht hno := by
    rw [outputs_of_texts hv]
    cases hdecode : decodeAll ts with
    | ok bs =>
      obtain ⟨b, hb⟩ := spelledBy_of_decodeAll hdecode ht
      exact absurd hb (hno b)
    | error f =>
      obtain ⟨why, rfl⟩ := decodeAll_error hdecode
      exact ⟨why, rfl⟩

end

/-! ## Replies -/

section

variable {ts : List Text} {bs : List Bytes} {reply : Json} {line after : Text}
  {style : Json.Style} {l : Link}

/-- The object of a reply that says that a request was carried out. -/
def successReply (id : Nat) (ts : List Text) : Json :=
  .object [("id", .int id), ("ok", .bool true),
    ("result", .object [("outputs", .array (ts.map .text))])]

theorem faithful_outputs (h : ∀ t ∈ ts, ∀ ch ∈ t, Text.IsScalar ch) :
    Faithful (.object [("outputs", .array (ts.map .text))]) := by
  have houtputs : Faithful (.array (ts.map .text)) :=
    Json.faithful_array (List.forall_mem_map.2 fun t ht => Json.faithful_text (h t ht))
  exact Json.faithful_object ["outputs"] rfl (by decide) (by decide)
    (List.forall_mem_singleton.2 houtputs)

theorem faithful_successReply (h : ∀ t ∈ ts, ∀ ch ∈ t, Text.IsScalar ch) :
    Faithful (successReply id ts) := by
  refine Json.faithful_object ["id", "ok", "result"] rfl (by decide) (by decide) ?_
  rw [List.forall_mem_cons, List.forall_mem_cons, List.forall_mem_singleton]
  exact ⟨Json.faithful_int _, Json.faithful_bool _, faithful_outputs h⟩

theorem read_successReply (hstyle : style.IsBlank) (hafter : ∀ ch ∈ after, Text.isBlank ch = true)
    (h : ∀ t ∈ ts, ∀ ch ∈ t, Text.IsScalar ch) :
    Json.read (Text.strip (Json.write style (successReply id ts) ++ after)) =
      .ok (successReply id ts) :=
  (faithful_successReply h).read_strip hstyle hafter

/-- The answer in a reply that says that its request was carried out. -/
theorem answerOf_of_ok (h : reply.field "ok" = .bool true) : answerOf reply = outputs reply := by
  unfold answerOf
  rw [h]

namespace Link

/-- A reply that says that its request was carried out is heard as what its outputs tell. -/
theorem hear_of_ok (hl : l.listening = true) (hid : id ∈ l.waiting)
    (hread : Json.read (Text.strip line) = .ok reply)
    (hkey : Json.sameKey (.int id) (reply.field "id") = true)
    (hok : reply.field "ok" = .bool true) :
    l.hear line = (l.withdraw id, [(id, outputs reply)]) := by
  rw [hear_of_repliesTo hl hid ⟨reply, hread, hkey⟩, answerIn_of_read hread, answerOf_of_ok hok]

/-- Byte strings that are written as the outputs of a reply, in digits of either case, are heard,
whatever blanks come after the reply. -/
theorem hear_successReply (hl : l.listening = true) (hid : id ∈ l.waiting)
    (hstyle : style.IsBlank) (hafter : ∀ ch ∈ after, Text.isBlank ch = true)
    (h : List.Forall₂ Bytes.SpelledBy bs ts) :
    l.hear (Json.write style (successReply id ts) ++ after) = (l.withdraw id, [(id, .ok bs)]) := by
  have hscalar : ∀ t ∈ ts, ∀ ch ∈ t, Text.IsScalar ch := by
    intro t ht ch hch
    obtain ⟨b, -, hb⟩ := exists_left_of_forall₂ h ht
    exact Text.isScalar_of_lt (hb.isPlain ch hch).lt
  have hread : Json.read (Text.strip (Json.write style (successReply id ts) ++ after)) =
      .ok (successReply id ts) := read_successReply hstyle hafter hscalar
  have hkey : Json.sameKey (.int id) ((successReply id ts).field "id") = true :=
    Json.sameKey_int_iff.2 ⟨.int id, rfl, rfl⟩
  have houtputs : Answer.outcome (outputs (successReply id ts)) = .ok bs :=
    (tells_outputs _).spelled bs ts rfl h
  rw [hear_of_ok hl hid hread hkey rfl, Answer.outcome_eq_ok_iff.1 houtputs]

end Link

end

/-! ## Top theorem -/

/-- The wire loses nothing. A request whose operation is made of scalar values is one line, and what
is read from it is an object that asks for just this call. Byte strings that a reply spells, in
digits of either case, are heard by a link over which the request waits; and a reply that says that
the request was carried out, in whatever way it is written, is heard as what its outputs tell: if
they are missing, are no list, or have something in them that is no text or spells nothing, the
subject has failed. -/
theorem wire_lossless {id : Nat} {c : Call} (hop : ∀ ch ∈ c.op, Text.IsScalar ch) {l : Link}
    (hl : l.listening = true) (hid : id ∈ l.waiting) :
    ((requestLine id c).IsLine ∧
      Json.read (requestLine id c) = .ok (request id c) ∧ Asks (request id c) id c) ∧
    (∀ style : Json.Style, style.IsBlank → ∀ bs ts, List.Forall₂ Bytes.SpelledBy bs ts →
      l.hear (Json.write style (successReply id ts) ++ [0x0A]) =
        (l.withdraw id, [(id, .ok bs)])) ∧
    ∀ line reply, Json.read (Text.strip line) = .ok reply →
      Json.sameKey (.int id) (reply.field "id") = true → reply.field "ok" = .bool true →
      ∃ a, l.hear line = (l.withdraw id, [(id, a)]) ∧
        Tells (outputsIn reply) (Answer.outcome a) := by
  refine ⟨⟨isLine_requestLine, read_requestLine hop, asks_request id c⟩, ?_, ?_⟩
  · intro style hstyle bs ts hspell
    have hbreak : ∀ ch ∈ ([0x0A] : Text), Text.isBlank ch = true := by decide
    exact Link.hear_successReply hl hid hstyle hbreak hspell
  · intro line reply hread hkey hok
    exact ⟨outputs reply, Link.hear_of_ok hl hid hread hkey hok, tells_outputs reply⟩

/-- A call of an operation whose name has a line feed, a quote and a letter that is not ASCII. -/
def oddCall : Call := { op := "a\n\"é", expected := 2, args := [[0xAB], []] }

/-- The request for it is one line, a reply in mixed case is heard, and one with half a byte fails
the call. -/
theorem oddCall_lossless :
    (requestLine 1 oddCall).IsLine ∧ Asks (request 1 oddCall) 1 oddCall ∧
      Link.waitingForOne.hear (Json.write Json.spaced (successReply 1 ["aB", ""]) ++ [0x0A]) =
        ({ lastId := 1 }, [(1, .ok [[0xAB], []])]) ∧
      ∃ a why, (Link.waitingForOne.hear
          (Json.write Json.spaced (successReply 1 ["a"]) ++ [0x0A])).2 = [(1, a)] ∧
        Answer.outcome a = .error (.subject (.actor (.badOutput why))) := by
  have hscalar : ∀ ch ∈ oddCall.op, Text.IsScalar ch := by decide
  have hwaits : 1 ∈ Link.waitingForOne.waiting := List.mem_cons_self
  have hspell : List.Forall₂ Bytes.SpelledBy [[0xAB], []] ["aB", ""] := .cons rfl (.cons rfl .nil)
  have hhalf : ∀ b, ¬ Bytes.SpelledBy b "a" := by
    intro b hb
    cases Bytes.decodeHex_iff.2 hb
  have hread : Json.read (Text.strip (Json.write Json.spaced (successReply 1 ["a"]) ++ [0x0A])) =
      .ok (successReply 1 ["a"]) :=
    read_successReply Json.isBlank_spaced (by decide) (by decide)
  obtain ⟨⟨hline, -, hasks⟩, hspelled, hheard⟩ := wire_lossless hscalar rfl hwaits
  obtain ⟨a, ha, htells⟩ := hheard _ _ hread rfl rfl
  obtain ⟨why, hwhy⟩ := htells.malformed ["a"] rfl "a" List.mem_cons_self hhalf
  exact ⟨hline, hasks, hspelled _ Json.isBlank_spaced _ _ hspell, a, why,
    congrArg Prod.snd ha, hwhy⟩

end Actor

end XofConformance
