import LiveStreaming.Library.Socket

/-!
# Reading an HTTP header

`read_http_header` reads byte by byte up to an empty line. A read that is to be made again counts as one that
got nothing, and the byte that it should have stored is looked at all the same.
-/

namespace LiveStreaming.HappyHls
open Library

/-- What a call finds besides the socket: the bytes that lie in its buffer, whether `errno` still says from an
earlier call that a read is to be made again, and the seconds that have gone by at each round. -/
structure HeaderSetting where
  junk : Nat → UInt8
  stale : Bool
  elapsed : List Nat

structure HttpHeader where
  ret : Int
  stored : List UInt8
  socket : List (Socket.ReadEvent UInt8)

/-- `read` with `JUDGE_RETURN`. An error is where the call returns 0. -/
def tryRead (stale : Bool) (size : Nat) (socket : List (Socket.ReadEvent UInt8)) :
    Except (List (Socket.ReadEvent UInt8)) (List UInt8 × List (Socket.ReadEvent UInt8)) :=
  match Socket.read size socket with
  | (.bytes bs, socket) => .ok (bs, socket)
  | (.eintr, socket) | (.eagain, socket) => .ok ([], socket)
  | (.eof, socket) => if stale then .ok ([], .eof :: socket) else .error socket
  | (.error, socket) => .error socket

/-- The loop for the three bytes behind a carriage return, which may be the end of the call. It is `none` when
the bytes never come. -/
def readLineEnd (bufferSize : Nat) (stale : Bool) (stored : List UInt8) :
    Nat → List UInt8 → List (Socket.ReadEvent UInt8) →
      Option (Except HttpHeader (List UInt8 × List (Socket.ReadEvent UInt8)))
  | 0, _, _ => none
  | fuel + 1, lineEnd, socket =>
    match tryRead stale (3 - lineEnd.length) socket with
    | .error socket => some (.error ⟨0, stored ++ lineEnd, socket⟩)
    | .ok (bs, socket) =>
      let lineEnd := lineEnd ++ bs
      if bufferSize < (stored ++ lineEnd).length then some (.error ⟨-1, stored ++ lineEnd, socket⟩)
      else if 3 - lineEnd.length = 0 then some (.ok (lineEnd, socket))
      else readLineEnd bufferSize stale stored fuel lineEnd socket

/-- The loop of `read_http_header`. It is `none` where the rounds do not suffice. -/
def readHttpHeaderLoop (bufferSize : Nat) (junk : Nat → UInt8) (stale : Bool) :
    List Nat → List UInt8 → List (Socket.ReadEvent UInt8) → Option HttpHeader
  | [], _, _ => none
  | gone :: elapsed, stored, socket =>
    if 20 ≤ gone then some ⟨-1, stored, socket⟩
    else
      match tryRead stale 1 socket with
      | .error socket => some ⟨0, stored, socket⟩
      | .ok (bs, socket) =>
        let b := bs.headD (junk stored.length)
        let stored := stored ++ bs
        if bufferSize < stored.length then some ⟨-1, stored, socket⟩
        else if b = 0 then some ⟨stored.length, stored, socket⟩
        else if b = 13 then
          match readLineEnd bufferSize stale stored (socket.length + 1) [] socket with
          | none => none
          | some (.error ended) => some ended
          | some (.ok (lineEnd, socket)) =>
            let stored := stored ++ lineEnd
            if lineEnd.getLastD 0 = 10 then some ⟨stored.length, stored, socket⟩
            else readHttpHeaderLoop bufferSize junk stale elapsed stored socket
        else readHttpHeaderLoop bufferSize junk stale elapsed stored socket

def readHttpHeader (bufferSize : Nat) (setting : HeaderSetting) (socket : List (Socket.ReadEvent UInt8)) :
    Option HttpHeader :=
  readHttpHeaderLoop bufferSize setting.junk setting.stale setting.elapsed [] socket

/-! ### Replies -/

/-- A header that is read to its end and not further: an empty line ends it, and none is in it before. -/
inductive HttpReply : List UInt8 → Prop where
  | last (first second : UInt8) : HttpReply [13, first, second, 10]
  | line (first second third : UInt8) (rest : List UInt8) (on : third ≠ 10) (more : HttpReply rest) :
      HttpReply (13 :: first :: second :: third :: rest)
  | text (b : UInt8) (rest : List UInt8) (filled : b ≠ 0) (within : b ≠ 13) (more : HttpReply rest) :
    HttpReply (b :: rest)

/-- No read of the reply goes without a byte, or the bytes in the buffer do not matter to one that does. -/
def Unbroken (reply : List UInt8) (junk : Nat → UInt8) (socket : List (Socket.ReadEvent UInt8)) : Prop :=
  reply.map .byte <+: Socket.items socket ∨ ∀ i < reply.length, junk i ≠ 0 ∧ junk i ≠ 13

variable {bufferSize size : Nat} {stale : Bool} {junk : Nat → UInt8} {bs stored reply more : List UInt8}
  {socket rest : List (Socket.ReadEvent UInt8)}

theorem HttpReply.of_line {line : List UInt8} (plain : ∀ b ∈ line, b ≠ 0 ∧ b ≠ 13) (first second : UInt8) :
    HttpReply (line ++ [13, first, second, 10]) := by
  induction line with
  | nil => exact .last first second
  | cons b line ih =>
    obtain ⟨filled, within⟩ := plain b List.mem_cons_self
    exact .text b _ filled within (ih fun c member => plain c (List.mem_cons_of_mem _ member))

theorem HttpReply.ne_nil (is : HttpReply reply) : reply ≠ [] := by
  cases is <;> exact List.cons_ne_nil _ _

/-- A read that goes on takes bytes off the front of the stream, and where it gets none no byte was next. -/
theorem tryRead_ok (asked : 0 < size) (h : tryRead stale size socket = .ok (bs, rest)) :
    Socket.incoming socket = bs ++ Socket.incoming rest ∧ bs.length ≤ size ∧ Socket.stops rest = Socket.stops socket ∧
      (bs ≠ [] → Socket.items socket = bs.map .byte ++ Socket.items rest) ∧
      (bs = [] → ∀ b later, Socket.items socket ≠ .byte b :: later) := by
  unfold tryRead at h
  split at h
  · next taken left read =>
    obtain ⟨rfl, rfl⟩ : taken = bs ∧ left = rest := by simpa using h
    obtain ⟨stream, positive, fits, _⟩ := Socket.read_bytes read asked
    refine ⟨stream, fits, (Socket.stops_read_bytes read).symm, fun _ => Socket.items_read_bytes read, fun nothing => ?_⟩
    rw [nothing] at positive
    exact absurd positive (Nat.lt_irrefl 0)
  · next left read =>
    obtain ⟨rfl, rfl⟩ : [] = bs ∧ left = rest := by simpa using h
    refine ⟨(Socket.read_quiet read (by simp)).1, Nat.zero_le _, (Socket.stops_read_again read (.inl rfl)).symm,
      fun some_ => absurd rfl some_, fun _ b later next => ?_⟩
    rcases Socket.items_read_quiet read (.inl rfl) with quiet | ⟨empty, _⟩ <;> simp_all
  · next left read =>
    obtain ⟨rfl, rfl⟩ : [] = bs ∧ left = rest := by simpa using h
    refine ⟨(Socket.read_quiet read (by simp)).1, Nat.zero_le _, (Socket.stops_read_again read (.inr rfl)).symm,
      fun some_ => absurd rfl some_, fun _ b later next => ?_⟩
    rcases Socket.items_read_quiet read (.inr rfl) with quiet | ⟨empty, _⟩ <;> simp_all
  · next left read =>
    split at h
    · obtain ⟨rfl, rfl⟩ : [] = bs ∧ .eof :: left = rest := by simpa using h
      refine ⟨(Socket.read_quiet read (by simp)).1, Nat.zero_le _, (Socket.stops_read_stop read (.inl rfl)).symm,
        fun some_ => absurd rfl some_, fun _ b later next => ?_⟩
      rw [Socket.items_read_stop read (.inl rfl)] at next
      cases next
    · cases h
  · cases h

/-- A read ends the call only where the stream is at its end. -/
theorem tryRead_error (h : tryRead stale size socket = .error rest) :
    Socket.incoming socket = Socket.incoming rest ∧ Socket.stops rest < Socket.stops socket := by
  unfold tryRead at h
  split at h
  · cases h
  · cases h
  · cases h
  · next left read =>
    split at h
    · cases h
    · obtain rfl : left = rest := by simpa using h
      rw [Socket.stops_read_stop read (.inl rfl)]
      exact ⟨(Socket.read_quiet read (by simp)).1, Nat.lt_succ_self _⟩
  · next left read =>
    obtain rfl : left = rest := by simpa using h
    rw [Socket.stops_read_stop read (.inr rfl)]
    exact ⟨(Socket.read_quiet read (by simp)).1, Nat.lt_succ_self _⟩

theorem tryRead_whole {todo : List UInt8} (asked : 0 < size) (fits : size ≤ todo.length)
    (h : tryRead stale size socket = .ok (bs, rest)) (whole : todo.map .byte <+: Socket.items socket) :
    bs ≠ [] ∧ (todo.drop bs.length).map .byte <+: Socket.items rest := by
  obtain ⟨_, length, _, some_, none_⟩ := tryRead_ok asked h
  have filled : bs ≠ [] := by
    intro nothing
    obtain ⟨later, items⟩ := whole
    cases todo with
    | nil => exact absurd fits (by simp only [List.length_nil]; omega)
    | cons b todo => exact none_ nothing b _ items.symm
  refine ⟨filled, ?_⟩
  rw [some_ filled] at whole
  obtain ⟨later, items⟩ := whole
  refine ⟨later, ?_⟩
  have behind := congrArg (List.drop bs.length) items
  rw [List.drop_append_of_le_length (by rw [List.length_map]; omega),
    List.drop_left' (by rw [List.length_map])] at behind
  rw [List.map_drop]
  exact behind

theorem readLineEnd_spec {fuel : Nat} {lineEnd : List UInt8}
    {r : Except HttpHeader (List UInt8 × List (Socket.ReadEvent UInt8))} (room : stored.length + 3 ≤ bufferSize)
    (short : lineEnd.length < 3) (h : readLineEnd bufferSize stale stored fuel lineEnd socket = some r) :
    (∃ taken rest, r = .ok (lineEnd ++ taken, rest) ∧ (lineEnd ++ taken).length = 3 ∧
        Socket.incoming socket = taken ++ Socket.incoming rest ∧ Socket.stops rest = Socket.stops socket ∧
        ∀ todo : List UInt8, 3 - lineEnd.length ≤ todo.length → todo.map .byte <+: Socket.items socket →
          (todo.drop taken.length).map .byte <+: Socket.items rest) ∨
      ∃ taken rest, r = .error ⟨0, stored ++ (lineEnd ++ taken), rest⟩ ∧ (lineEnd ++ taken).length < 3 ∧
        Socket.incoming socket = taken ++ Socket.incoming rest ∧ Socket.stops rest < Socket.stops socket := by
  induction fuel generalizing lineEnd socket with
  | zero => cases h
  | succ fuel ih =>
    rw [readLineEnd] at h
    split at h
    · next rest read =>
      obtain ⟨stream, told⟩ := tryRead_error read
      obtain rfl := Option.some.inj h
      refine .inr ⟨[], rest, ?_, ?_, stream, told⟩
      · rw [List.append_nil]
      · rwa [List.append_nil]
    · next bs rest read =>
      obtain ⟨stream, length, stops, _⟩ := tryRead_ok (show 0 < 3 - lineEnd.length by omega) read
      have after : (lineEnd ++ bs).length = lineEnd.length + bs.length := List.length_append
      dsimp only at h
      rw [if_neg (by rw [List.length_append, after]; omega)] at h
      have behind : ∀ todo : List UInt8, 3 - lineEnd.length ≤ todo.length → todo.map .byte <+: Socket.items socket →
          (todo.drop bs.length).map .byte <+: Socket.items rest := fun todo enough whole =>
        (tryRead_whole (show 0 < 3 - lineEnd.length by omega) enough read whole).2
      split at h
      · next full =>
        obtain rfl := Option.some.inj h
        exact .inl ⟨bs, rest, rfl, by omega, stream, stops, behind⟩
      · rcases ih (by omega) h with ⟨taken, last, rfl, full, later, same, whole⟩ | ⟨taken, last, rfl, less, later, told⟩
        · refine .inl ⟨bs ++ taken, last, ?_, ?_, ?_, same.trans stops, fun todo enough here => ?_⟩
          · rw [List.append_assoc]
          · rwa [← List.append_assoc]
          · rw [stream, later, List.append_assoc]
          · have rest_ := whole (todo.drop bs.length) (by rw [List.length_drop, after]; omega) (behind todo enough here)
            rwa [List.drop_drop, ← List.length_append] at rest_
        · refine .inr ⟨bs ++ taken, last, ?_, ?_, ?_, Nat.lt_of_lt_of_eq told stops⟩
          · rw [List.append_assoc]
          · rwa [← List.append_assoc]
          · rw [stream, later, List.append_assoc]

theorem prefix_split {front bytes later tail : List UInt8} (within : bytes ++ later <+: front ++ tail)
    (same : bytes.length = front.length) : bytes = front ∧ later <+: tail := by
  obtain ⟨rest, all⟩ := within
  rw [List.append_assoc] at all
  obtain ⟨rfl, behind⟩ := List.append_inj all same
  exact ⟨rfl, rest, behind⟩

/-- The stream is at its end before `size` more bytes have been read. -/
def HeaderCut (stored : List UInt8) (size : Nat) (socket : List (Socket.ReadEvent UInt8)) (r : HttpHeader) : Prop :=
  r.ret = 0 ∧ Socket.stops r.socket < Socket.stops socket ∧ ∃ taken : List UInt8, r.stored = stored ++ taken ∧
    Socket.incoming socket = taken ++ Socket.incoming r.socket ∧ taken.length < size

theorem HeaderCut.longer {size longer : Nat} {r : HttpHeader} (cut : HeaderCut stored size socket r)
    (more : size ≤ longer) : HeaderCut stored longer socket r := by
  obtain ⟨ret, told, taken, part, stream, less⟩ := cut
  exact ⟨ret, told, taken, part, stream, Nat.lt_of_lt_of_le less more⟩

/-- How a call ends that has `todo` before it: it has read it all, or the stream is at its end before. -/
def HeaderRead (stored todo : List UInt8) (socket : List (Socket.ReadEvent UInt8)) (r : HttpHeader) : Prop :=
  (r.ret = (stored ++ todo).length ∧ r.stored = stored ++ todo ∧
      Socket.incoming socket = todo ++ Socket.incoming r.socket ∧ Socket.stops r.socket = Socket.stops socket) ∨
    HeaderCut stored todo.length socket r

theorem HeaderRead.behind {front todo : List UInt8} {r : HttpHeader} (read : HeaderRead (stored ++ front) todo rest r)
    (stream : Socket.incoming socket = front ++ Socket.incoming rest)
    (stops : Socket.stops rest = Socket.stops socket) :
    HeaderRead stored (front ++ todo) socket r := by
  rcases read with ⟨ret, all, later, same⟩ | ⟨ret, told, taken, part, later, less⟩
  · rw [List.append_assoc] at ret all
    exact .inl ⟨ret, all, by rw [stream, later, List.append_assoc], same.trans stops⟩
  · rw [List.append_assoc] at part
    refine .inr ⟨ret, Nat.lt_of_lt_of_eq told stops, front ++ taken, part, ?_, ?_⟩
    · rw [stream, later, List.append_assoc]
    · rw [List.length_append, List.length_append]
      omega

theorem readLineEnd_bytes {fuel : Nat} {first second third : UInt8} {tail : List UInt8}
    {r : Except HttpHeader (List UInt8 × List (Socket.ReadEvent UInt8))} (room : stored.length + 3 ≤ bufferSize)
    (within : Socket.incoming socket <+: first :: second :: third :: tail)
    (h : readLineEnd bufferSize stale stored fuel [] socket = some r) :
    (∃ rest, r = .ok ([first, second, third], rest) ∧
        Socket.incoming socket = [first, second, third] ++ Socket.incoming rest ∧ Socket.incoming rest <+: tail ∧
        Socket.stops rest = Socket.stops socket ∧
        ∀ todo : List UInt8, 3 ≤ todo.length → todo.map .byte <+: Socket.items socket →
          (todo.drop 3).map .byte <+: Socket.items rest) ∨
      ∃ ended, r = .error ended ∧ HeaderCut stored 3 socket ended := by
  rcases readLineEnd_spec room (by decide) h with
    ⟨taken, rest, rfl, full, stream, stops, whole⟩ | ⟨taken, rest, rfl, less, stream, told⟩
  · rw [stream] at within
    obtain ⟨rfl, behind⟩ := @prefix_split [first, second, third] taken _ tail within full
    exact .inl ⟨rest, rfl, stream, behind, stops, whole⟩
  · exact .inr ⟨_, rfl, rfl, told, taken, rfl, stream, less⟩

theorem readHttpHeaderLoop_reply {elapsed : List Nat} {todo : List UInt8} {r : HttpHeader} (is : HttpReply todo)
    (room : stored.length + todo.length ≤ bufferSize) (within : Socket.incoming socket <+: todo ++ more)
    (patient : ∀ gone ∈ elapsed, gone < 20)
    (unbroken : todo.map .byte <+: Socket.items socket ∨ ∀ i < stored.length + todo.length, junk i ≠ 0 ∧ junk i ≠ 13)
    (h : readHttpHeaderLoop bufferSize junk stale elapsed stored socket = some r) :
    HeaderRead stored todo socket r := by
  induction elapsed generalizing stored todo socket with
  | nil => cases h
  | cons gone elapsed ih =>
    have early := patient gone List.mem_cons_self
    have later : ∀ gone ∈ elapsed, gone < 20 := fun gone member => patient gone (List.mem_cons_of_mem _ member)
    have filled := List.length_pos_of_ne_nil is.ne_nil
    rw [readHttpHeaderLoop, if_neg (by omega)] at h
    split at h
    · next rest read =>
      obtain ⟨stream, told⟩ := tryRead_error read
      obtain rfl := Option.some.inj h
      exact .inr ⟨rfl, told, [], (List.append_nil stored).symm, stream, filled⟩
    · next bs rest read =>
      obtain ⟨stream, length, stops, _⟩ := tryRead_ok Nat.one_pos read
      have whole := @tryRead_whole 1 stale bs socket rest todo Nat.one_pos filled read
      dsimp only at h
      cases bs with
      | nil =>
        -- nothing came: the byte that is looked at is not one that was read
        have plain := (unbroken.resolve_left fun here => (whole here).1 rfl) stored.length (by omega)
        rw [List.append_nil, if_neg (by omega), List.headD_nil, if_neg plain.1, if_neg plain.2] at h
        rw [List.nil_append] at stream
        rw [stream] at within
        have read_ := ih is room within later (.inr (unbroken.resolve_left fun here => (whole here).1 rfl)) h
        exact @HeaderRead.behind stored socket rest [] todo r (by rwa [List.append_nil]) stream stops
      | cons b bs =>
        obtain rfl : bs = [] := List.length_eq_zero_iff.mp (by simp only [List.length_cons] at length; omega)
        rw [stream] at within
        rw [List.headD_cons] at h
        have after : (stored ++ [b]).length = stored.length + 1 := List.length_append
        rw [if_neg (by omega)] at h
        cases is with
        | last first second =>
          obtain ⟨front, behind⟩ := @prefix_split [13] [b] _ _ within rfl
          obtain rfl := List.singleton_inj.mp front
          simp only [List.length_cons, List.length_nil] at room
          rw [if_neg (by decide), if_pos rfl] at h
          split at h
          · cases h
          · next ended line =>
            obtain rfl := Option.some.inj h
            rcases readLineEnd_bytes (by omega) behind line with ⟨_, no, _⟩ | ⟨_, same, cut⟩
            · cases no
            · obtain rfl := Except.error.inj same
              exact @HeaderRead.behind stored socket rest [13] [first, second, 10] ended (.inr cut) stream stops
          · next lineEnd last line =>
            rcases readLineEnd_bytes (by omega) behind line with ⟨_, same, stream', _, stops', _⟩ | ⟨_, no, _⟩
            · obtain ⟨rfl, rfl⟩ := Prod.mk.inj (Except.ok.inj same)
              rw [if_pos (by rfl)] at h
              obtain rfl := Option.some.inj h
              refine HeaderRead.behind (.inl ⟨rfl, rfl, stream', stops'⟩) stream stops
            · cases no
        | line first second third todo on is =>
          obtain ⟨front, behind⟩ := @prefix_split [13] [b] _ _ within rfl
          obtain rfl := List.singleton_inj.mp front
          simp only [List.length_cons] at room unbroken
          rw [if_neg (by decide), if_pos rfl] at h
          split at h
          · cases h
          · next ended line =>
            obtain rfl := Option.some.inj h
            rcases readLineEnd_bytes (by omega) behind line with ⟨_, no, _⟩ | ⟨_, same, cut⟩
            · cases no
            · obtain rfl := Except.error.inj same
              have longer : 3 ≤ (first :: second :: third :: todo).length := Nat.le_add_left 3 _
              exact HeaderRead.behind (.inr (cut.longer longer)) stream stops
          · next lineEnd last line =>
            rcases readLineEnd_bytes (by omega) behind line with
              ⟨_, same, stream', within', stops', whole'⟩ | ⟨_, no, _⟩
            · obtain ⟨rfl, rfl⟩ := Prod.mk.inj (Except.ok.inj same)
              rw [if_neg (show ¬ [first, second, third].getLastD 0 = 10 from on)] at h
              have lengths : (stored ++ [13] ++ [first, second, third]).length = stored.length + 4 := by simp
              have rest_ : todo.map .byte <+: Socket.items last ∨
                  ∀ i < (stored ++ [13] ++ [first, second, third]).length + todo.length, junk i ≠ 0 ∧ junk i ≠ 13 := by
                rw [lengths]
                refine unbroken.imp (fun here => ?_) fun plain i small => plain i (by omega)
                exact whole' (first :: second :: third :: todo) (by simp) (whole here).2
              have read_ := ih is (by omega) within' later rest_ h
              exact (read_.behind stream' stops').behind stream stops
            · cases no
        | text c todo nonzero plain is =>
          obtain ⟨front, behind⟩ := @prefix_split [c] [b] _ _ within rfl
          obtain rfl := List.singleton_inj.mp front
          simp only [List.length_cons] at room unbroken
          rw [if_neg nonzero, if_neg plain] at h
          have rest_ : todo.map .byte <+: Socket.items rest ∨
              ∀ i < (stored ++ [b]).length + todo.length, junk i ≠ 0 ∧ junk i ≠ 13 := by
            rw [after]
            exact unbroken.imp (fun here => (whole here).2) fun plain i small => plain i (by omega)
          exact (ih is (by omega) behind later rest_ h).behind stream stops

/-- A reply that comes in time is read to its end and not further, unless the stream is at its end before. -/
theorem readHttpHeader_reply {setting : HeaderSetting} {r : HttpHeader} (is : HttpReply reply)
    (room : reply.length ≤ bufferSize) (within : Socket.incoming socket <+: reply ++ more)
    (patient : ∀ gone ∈ setting.elapsed, gone < 20) (unbroken : Unbroken reply setting.junk socket)
    (h : readHttpHeader bufferSize setting socket = some r) : HeaderRead [] reply socket r := by
  refine readHttpHeaderLoop_reply is ?_ within patient ?_ h
  · rwa [List.length_nil, Nat.zero_add]
  · rw [List.length_nil, Nat.zero_add]
    exact unbroken

end LiveStreaming.HappyHls
