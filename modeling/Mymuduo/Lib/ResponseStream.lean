import Mymuduo.Lib.ResponseMessage

/-!
# Streams of response messages

A peer that keeps its connection reads one message after the other from it, and finds the end of
each by its length field. What it makes of the bytes that have arrived does not depend on those that
are still to come.

* `readMessage_append`: a message that can be read is read the same with more bytes behind it;
* `readMessages_of_prefix`: from a part of a stream of messages the first ones are read, as many as
  have arrived whole.
-/

namespace ResponseMessage

open CString Lines

def lengthField : Bytes := ascii "Content-Length"

/-- The length of the body, if the header fields give one and only one. -/
def bodyLength (headers : List (Bytes × Bytes)) : Option Nat :=
  match headers.filter fun h => h.1 = lengthField with
  | [(_, value)] => (strto value).bind fun n => if natText n.toNat = value then some n.toNat else none
  | _ => none

/-- The length field tells the end of the message. -/
def Framed (m : Message) : Prop := bodyLength m.headers = some m.body.length

/-! ## One message -/

/-- The first message, and what follows it. -/
def readMessage (u : Bytes) : Option (Message × Bytes) :=
  match cutLine u with
  | none => none
  | some (line, rest) =>
    match decodeStatusLine line, decodeHeaders rest with
    | some (status, reason), some (headers, rest) =>
      match bodyLength headers with
      | some n =>
        if n ≤ rest.length then some (⟨status, reason, headers, rest.take n⟩, rest.drop n) else none
      | none => none
    | _, _ => none

/-- What is read is there, between the status line and what follows. -/
theorem readMessage_eq_some {u v : Bytes} {m : Message} (h : readMessage u = some (m, v)) :
    ∃ line rest, cutLine u = some (line, rest) ∧ decodeStatusLine line = some (m.status, m.reason) ∧
      decodeHeaders rest = some (m.headers, m.body ++ v) ∧ Framed m := by
  unfold readMessage at h
  split at h
  · cases h
  · next line rest hcut =>
    split at h
    · next status reason headers rest' hstatus hheaders =>
      split at h
      · next n hn =>
        split at h
        · next hle =>
          obtain ⟨rfl, rfl⟩ := Prod.mk.inj (Option.some.inj h)
          refine ⟨line, rest, hcut, hstatus, ?_, ?_⟩
          · rw [hheaders, List.take_append_drop]
          · rw [Framed, hn, List.length_take_of_le hle]
        · cases h
      · cases h
    · cases h

theorem readMessage_of_parts {u line rest v : Bytes} {m : Message}
    (hcut : cutLine u = some (line, rest))
    (hstatus : decodeStatusLine line = some (m.status, m.reason))
    (hheaders : decodeHeaders rest = some (m.headers, m.body ++ v)) (hframed : Framed m) :
    readMessage u = some (m, v) := by
  have hle : m.body.length ≤ (m.body ++ v).length := by simp
  simp only [readMessage, hcut, hstatus, hheaders, show bodyLength m.headers = _ from hframed, hle,
    if_true, List.take_left, List.drop_left]

/-- Header fields that can be read are read the same with more bytes behind them. -/
theorem decodeHeaders_append {u body : Bytes} {hs : List (Bytes × Bytes)}
    (h : decodeHeaders u = some (hs, body)) (v : Bytes) :
    decodeHeaders (u ++ v) = some (hs, body ++ v) := by
  induction u using decodeHeaders.induct generalizing hs with
  | case1 u hcut =>
    rw [decodeHeaders] at h
    split at h
    · cases h
    · next heq => rw [hcut] at heq; cases heq
  | case2 u rest hcut =>
    rw [decodeHeaders_of_cut hcut, if_pos rfl] at h
    cases h
    rw [decodeHeaders_of_cut (cutLine_append hcut v), if_pos rfl]
  | case3 u line rest hcut hne hheader =>
    rw [decodeHeaders_of_cut hcut, if_neg hne, hheader] at h
    cases h
  | case4 u line rest hcut hne p hheader ih =>
    rw [decodeHeaders_of_cut hcut, if_neg hne, hheader] at h
    obtain ⟨⟨hs', body'⟩, hrest, heq⟩ := Option.map_eq_some_iff.mp h
    cases heq
    rw [decodeHeaders_of_cut (cutLine_append hcut v), if_neg hne, hheader, ih hrest]
    rfl

theorem readMessage_append {u v : Bytes} {m : Message} (h : readMessage u = some (m, v))
    (w : Bytes) : readMessage (u ++ w) = some (m, v ++ w) := by
  obtain ⟨line, rest, hcut, hstatus, hheaders, hframed⟩ := readMessage_eq_some h
  refine readMessage_of_parts (cutLine_append hcut w) hstatus ?_ hframed
  rw [decodeHeaders_append hheaders, List.append_assoc]

theorem readMessage_encode {m : Message} (h : WellFormed m) (hframed : Framed m) (v : Bytes) :
    readMessage (encode m ++ v) = some (m, v) := by
  have hline : LF ∉ protocol ++ (intText m.status ++ blank :: m.reason) := by
    simp only [List.mem_append, List.mem_cons, not_or]
    exact ⟨by decide, notMem_intText (by decide) (by decide), by decide, h.reason⟩
  have hsplit : encode m ++ v = protocol ++ (intText m.status ++ blank :: m.reason) ++ crlf ++
      (encodeHeaders m.headers ++ ([] ++ crlf ++ (m.body ++ v))) := by
    simp [encode]
  rw [hsplit]
  exact readMessage_of_parts (cutLine_line hline _) (decodeStatusLine_eq m.status m.reason)
    (decodeHeaders_eq h.names h.values _) hframed

theorem length_lt_of_readMessage {u v : Bytes} {m : Message} (h : readMessage u = some (m, v)) :
    v.length < u.length := by
  obtain ⟨line, rest, hcut, -, hheaders, -⟩ := readMessage_eq_some h
  have hrest : rest.length < u.length := length_lt_of_cutLine hcut
  have hlength := congrArg List.length (encode_of_decodeHeaders hheaders)
  simp only [List.length_append] at hlength
  omega

/-! ## A stream -/

/-- The messages that have arrived whole, and what has arrived of the next one. -/
def readMessages (u : Bytes) : List Message × Bytes :=
  match _h : readMessage u with
  | none => ([], u)
  | some (m, v) => (m :: (readMessages v).1, (readMessages v).2)
termination_by u.length
decreasing_by
  all_goals exact length_lt_of_readMessage _h

theorem readMessages_of_none {u : Bytes} (h : readMessage u = none) : readMessages u = ([], u) := by
  rw [readMessages]
  split
  · rfl
  · next heq => rw [h] at heq; cases heq

theorem readMessages_of_some {u v : Bytes} {m : Message} (h : readMessage u = some (m, v)) :
    readMessages u = (m :: (readMessages v).1, (readMessages v).2) := by
  rw [readMessages]
  split
  · next heq => rw [h] at heq; cases heq
  · next heq => rw [h] at heq; cases heq; rfl

/-- Of a stream of messages of which `u` has arrived, those are read that have arrived whole. -/
theorem readMessages_of_prefix {ms : List Message} (hms : ∀ m ∈ ms, WellFormed m ∧ Framed m)
    {u : Bytes} (hu : u <+: ms.flatMap encode) :
    ∃ read rest v, ms = read ++ rest ∧ readMessages u = (read, v) ∧
      u = read.flatMap encode ++ v ∧ ∀ m ∈ rest.head?, v.length < (encode m).length := by
  obtain ⟨w, hw⟩ := hu
  induction ms generalizing u with
  | nil =>
    obtain ⟨rfl, -⟩ := List.append_eq_nil_iff.mp hw
    exact ⟨[], [], [], rfl, readMessages_of_none rfl, rfl, by simp⟩
  | cons m ms ih =>
    obtain ⟨hm, hframed⟩ := hms m List.mem_cons_self
    rw [List.flatMap_cons] at hw
    cases hread : readMessage u with
    | none =>
      refine ⟨[], m :: ms, u, rfl, readMessages_of_none hread, rfl, ?_⟩
      rintro _ ⟨⟩
      by_contra hle
      -- a whole message would have been read
      obtain ⟨x, rfl⟩ : encode m <+: u :=
        List.prefix_of_prefix_length_le ⟨_, rfl⟩ ⟨_, hw⟩ (Nat.not_lt.mp hle)
      rw [readMessage_encode hm hframed] at hread
      cases hread
    | some p =>
      obtain ⟨m', v⟩ := p
      have hwhole := readMessage_append hread w
      rw [hw, readMessage_encode hm hframed] at hwhole
      obtain ⟨rfl, hrest⟩ := Prod.mk.inj (Option.some.inj hwhole)
      obtain ⟨read, rest, v', hsplit, hreads, hv, hnext⟩ :=
        ih (fun m' hm' => hms m' (List.mem_cons_of_mem _ hm')) hrest.symm
      have hu : u = encode m ++ v := by
        rw [hrest, ← List.append_assoc] at hw
        exact List.append_cancel_right hw
      refine ⟨m :: read, rest, v', by rw [hsplit]; rfl, ?_, ?_, hnext⟩
      · rw [readMessages_of_some hread, hreads]
      · rw [hu, List.flatMap_cons, List.append_assoc, ← hv]

end ResponseMessage
