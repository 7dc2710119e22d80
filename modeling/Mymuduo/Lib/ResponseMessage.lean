import Mymuduo.Lib.Lines

/-!
# HTTP response messages

A response message as a peer reads it: a status, a reason, header fields in order and a body. The
reader `decode` is strict, so that reading and writing determine each other:

* `decode_encode`: what is written from well-formed parts is read back;
* `encode_of_decode`: what can be read is what writing its parts gives.
-/

namespace ResponseMessage

open CString Lines

/-- A message. -/
structure Message where
  status : Int
  reason : Bytes
  headers : List (Bytes × Bytes)
  body : Bytes
  deriving DecidableEq

def blank : UInt8 := 32
def colon : UInt8 := 58

def protocol : Bytes := ascii "HTTP/1.1 "

/-! ## Writing -/

def encodeHeader (h : Bytes × Bytes) : Bytes := h.1 ++ colon :: blank :: h.2

def encodeHeaders (hs : List (Bytes × Bytes)) : Bytes :=
  hs.flatMap fun h => encodeHeader h ++ crlf

def encode (m : Message) : Bytes :=
  (protocol ++ (intText m.status ++ blank :: m.reason)) ++ crlf ++
    (encodeHeaders m.headers ++ ([] ++ crlf ++ m.body))

/-! ## Reading -/

def decodeStatusLine (line : Bytes) : Option (Int × Bytes) :=
  if line.take protocol.length = protocol then
    match cutByte blank (line.drop protocol.length) with
    | none => none
    | some (code, reason) =>
      match strto code with
      | none => none
      | some status => if intText status = code then some (status, reason) else none
  else none

/-- A line of the form `name: value`. -/
def decodeHeader (line : Bytes) : Option (Bytes × Bytes) :=
  match cutByte colon line with
  | none => none
  | some (name, rest) =>
    match rest with
    | [] => none
    | b :: value => if b = blank then some (name, value) else none

/-- Header lines up to the empty one, and what follows it. -/
def decodeHeaders (u : Bytes) : Option (List (Bytes × Bytes) × Bytes) :=
  match _h : cutLine u with
  | none => none
  | some (line, rest) =>
    if line = [] then some ([], rest)
    else
      match decodeHeader line with
      | none => none
      | some h => (decodeHeaders rest).map fun p => (h :: p.1, p.2)
termination_by u.length
decreasing_by
  exact length_lt_of_cutLine _h

def decode (u : Bytes) : Option Message :=
  match cutLine u with
  | none => none
  | some (line, rest) =>
    match decodeStatusLine line, decodeHeaders rest with
    | some (status, reason), some (headers, body) => some ⟨status, reason, headers, body⟩
    | _, _ => none

/-! ## Reading back -/

/-- The parts of a message can be told apart. -/
structure WellFormed (m : Message) : Prop where
  reason : LF ∉ m.reason
  names : ∀ h ∈ m.headers, colon ∉ h.1 ∧ LF ∉ h.1
  values : ∀ h ∈ m.headers, LF ∉ h.2

theorem notMem_intText {z : Int} {b : UInt8} (hsign : b ≠ 45) (hdigit : isdigit b = false) :
    b ∉ intText z := by
  intro hm
  rcases mem_intText hm with rfl | hd
  · exact hsign rfl
  · simp [hdigit] at hd

theorem decodeStatusLine_eq (status : Int) (reason : Bytes) :
    decodeStatusLine (protocol ++ (intText status ++ blank :: reason)) = some (status, reason) := by
  have hcut : cutByte blank (intText status ++ blank :: reason) = some (intText status, reason) :=
    cutByte_append (notMem_intText (by decide) (by decide)) reason
  simp only [decodeStatusLine, List.take_left, List.drop_left, hcut, strto_intText, if_true]

theorem decodeHeader_eq {h : Bytes × Bytes} (hname : colon ∉ h.1) :
    decodeHeader (encodeHeader h) = some h := by
  simp only [decodeHeader, encodeHeader, cutByte_append hname, if_true]

theorem decodeHeaders_of_cut {u line rest : Bytes} (hcut : cutLine u = some (line, rest)) :
    decodeHeaders u =
      if line = [] then some ([], rest)
      else
        match decodeHeader line with
        | none => none
        | some h => (decodeHeaders rest).map fun p => (h :: p.1, p.2) := by
  rw [decodeHeaders]
  split
  · next heq => rw [hcut] at heq; cases heq
  · next heq => rw [hcut] at heq; cases heq; rfl

theorem decodeHeaders_eq {hs : List (Bytes × Bytes)} (hnames : ∀ h ∈ hs, colon ∉ h.1 ∧ LF ∉ h.1)
    (hvalues : ∀ h ∈ hs, LF ∉ h.2) (body : Bytes) :
    decodeHeaders (encodeHeaders hs ++ ([] ++ crlf ++ body)) = some (hs, body) := by
  induction hs with
  | nil => exact decodeHeaders_of_cut (cutLine_line (by simp) body)
  | cons h hs ih =>
    have hrest := ih (fun h' hm => hnames h' (List.mem_cons_of_mem _ hm))
      (fun h' hm => hvalues h' (List.mem_cons_of_mem _ hm))
    obtain ⟨hcolon, hlf⟩ := hnames h List.mem_cons_self
    have hline : LF ∉ encodeHeader h := by
      simp only [encodeHeader, List.mem_append, List.mem_cons, not_or]
      exact ⟨hlf, by decide, by decide, hvalues h List.mem_cons_self⟩
    have hne : encodeHeader h ≠ [] := by simp [encodeHeader]
    have hsplit : encodeHeaders (h :: hs) ++ ([] ++ crlf ++ body) =
        encodeHeader h ++ crlf ++ (encodeHeaders hs ++ ([] ++ crlf ++ body)) := by
      simp [encodeHeaders]
    rw [hsplit, decodeHeaders_of_cut (cutLine_line hline _), if_neg hne, decodeHeader_eq hcolon,
      hrest]
    rfl

/-- What is written from well-formed parts is read back. -/
theorem decode_encode {m : Message} (h : WellFormed m) : decode (encode m) = some m := by
  have hline : LF ∉ protocol ++ (intText m.status ++ blank :: m.reason) := by
    simp only [List.mem_append, List.mem_cons, not_or]
    exact ⟨by decide, notMem_intText (by decide) (by decide), by decide, h.reason⟩
  simp only [decode, encode, cutLine_line hline, decodeStatusLine_eq,
    decodeHeaders_eq h.names h.values]

/-! ## What can be read -/

theorem encode_of_decodeStatusLine {line reason : Bytes} {status : Int}
    (h : decodeStatusLine line = some (status, reason)) :
    line = protocol ++ (intText status ++ blank :: reason) := by
  unfold decodeStatusLine at h
  split at h
  · next htake =>
    split at h
    · cases h
    · next code rest hcut =>
      split at h
      · cases h
      · split at h
        · next htext =>
          cases h
          have hsplit := List.take_append_drop protocol.length line
          rw [htake, (cutByte_eq_some hcut).1] at hsplit
          rw [htext, hsplit]
        · cases h
  · cases h

theorem encode_of_decodeHeader {line : Bytes} {h : Bytes × Bytes}
    (hd : decodeHeader line = some h) :
    line = encodeHeader h := by
  unfold decodeHeader at hd
  split at hd
  · cases hd
  · next hcut =>
    split at hd
    · cases hd
    · split at hd
      · next hblank =>
        cases hd
        rw [(cutByte_eq_some hcut).1, hblank]
        rfl
      · cases hd

theorem encode_of_decodeHeaders {u body : Bytes} {hs : List (Bytes × Bytes)}
    (h : decodeHeaders u = some (hs, body)) : u = encodeHeaders hs ++ ([] ++ crlf ++ body) := by
  induction u using decodeHeaders.induct generalizing hs with
  | case1 u hcut =>
    rw [decodeHeaders] at h
    split at h
    · cases h
    · next heq => rw [hcut] at heq; cases heq
  | case2 u rest hcut =>
    rw [decodeHeaders_of_cut hcut, if_pos rfl] at h
    cases h
    exact cutLine_eq_some hcut
  | case3 u line rest hcut hne hheader =>
    rw [decodeHeaders_of_cut hcut, if_neg hne, hheader] at h
    cases h
  | case4 u line rest hcut hne p hheader ih =>
    rw [decodeHeaders_of_cut hcut, if_neg hne, hheader] at h
    obtain ⟨⟨hs', body'⟩, hrest, heq⟩ := Option.map_eq_some_iff.mp h
    cases heq
    rw [cutLine_eq_some hcut, encode_of_decodeHeader hheader, ih hrest]
    simp [encodeHeaders]

/-- What can be read is what writing its parts gives. -/
theorem encode_of_decode {u : Bytes} {m : Message} (h : decode u = some m) : u = encode m := by
  unfold decode at h
  split at h
  · cases h
  · next line rest hcut =>
    split at h
    · next hstatus hheaders =>
      cases h
      rw [cutLine_eq_some hcut, encode_of_decodeStatusLine hstatus,
        encode_of_decodeHeaders hheaders]
      rfl
    · cases h

end ResponseMessage
