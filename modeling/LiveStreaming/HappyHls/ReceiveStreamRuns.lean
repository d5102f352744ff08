import LiveStreaming.HappyHls.ReceiveStreamCall

/-!
# All streams of a process

Before a stream gets past its reply the static variables are as they were. From then on they are about that stream,
and no other is read any more.
-/

namespace LiveStreaming.HappyHls.ReceiveStream
open Library Streamer

variable {s s' : Process} {fd : Nat} {conn : Connection} {viewer : Viewer} {setting : Setting}
  {socket : List (Socket.ReadEvent UInt8)}

def Process.call (s : Process) (conn : Connection) (viewer : Viewer) (socket : List (Socket.ReadEvent UInt8)) : Call :=
  ⟨s.statics, s.tsFiles, s.playlists, viewer, socket, conn.taken, conn.handled⟩

/-- Nothing has been read of the stream. -/
structure Waiting (s : Process) (fd : Nat) (conn : Connection) : Prop where
  listening : conn.listening = true
  taken : conn.taken = []
  handled : conn.handled = []
  pooled : s.pool conn.channel = some (.start fd)

/-- The stream has ended before a tag of it was there. -/
structure Gone (conn : Connection) : Prop where
  quiet : conn.listening = false
  ended : conn.ended = true
  handled : conn.handled = []
  none_ : conn.complete = 0

/-- The stream is being read, and its first tag is not there yet. -/
structure Reading (s : Process) (fd : Nat) (conn : Connection) : Prop where
  listening : conn.listening = true
  inside : conn.taken <+: conn.stream.bytes
  call : ∃ viewer, s.pool conn.channel = some viewer ∧ viewer.flvHeader ≠ [] ∧ ¬ Whole viewer ∧
    Course conn.stream conn.channel fd (s.call conn viewer [])

/-- The only tag of the stream has been handled. -/
structure Done (conn : Connection) : Prop where
  quiet : conn.listening = false
  only : ∃ tag, conn.stream.tags = [tag] ∧ conn.handled = [tag.bytes]
  taken : conn.taken = conn.stream.bytes

def Idle (s : Process) (fd : Nat) (conn : Connection) : Prop := Waiting s fd conn ∨ Gone conn

/-- No stream has got past its reply, or one has, and the static variables and the files are its own. -/
inductive Inv (s : Process) : Prop where
  | untouched (sound : s.fault = false) (statics : s.statics = .start) (tsFiles : s.tsFiles = [])
      (playlists : s.playlists = fun _ => none) (idle : ∀ fd conn, s.connections fd = some conn → Idle s fd conn)
  | served (sound : s.fault = false) (first : s.statics.readHttpReplyFirst = false) (owner : Nat) (conn : Connection)
      (known : s.connections owner = some conn) (mine : Reading s owner conn ∨ Gone conn ∨ Done conn)
      (owned : Owned conn.stream conn.channel s.tsFiles s.playlists)
      (others : ∀ fd conn, fd ≠ owner → s.connections fd = some conn → Idle s fd conn)

/-! ### What the invariant says of the streams -/

theorem complete_zero (tags : List FlvTag) : complete tags 0 = 0 := by
  cases tags with
  | nil => rfl
  | cons tag tags =>
    rw [complete, if_neg]
    rw [tag.length_bytes]
    omega

theorem Gone.followed (gone : Gone conn) : Followed conn where
  once := by
    rw [gone.handled, gone.none_]
    rfl
  heard := .inr (.inl gone.ended)

theorem Waiting.none_ (waiting : Waiting s fd conn) : conn.complete = 0 := by
  unfold Connection.complete
  rw [waiting.taken, List.length_nil, Nat.zero_sub]
  exact complete_zero _

theorem Idle.followed (idle : Idle s fd conn) : Followed conn := by
  rcases idle with waiting | gone
  · refine ⟨?_, .inl waiting.listening⟩
    rw [waiting.handled, waiting.none_]
    rfl
  · exact gone.followed

theorem Reading.none_ (reading : Reading s fd conn) : conn.handled = [] ∧ conn.complete = 0 := by
  obtain ⟨viewer, _, _, part, course⟩ := reading.call
  exact ⟨course.handled, course.parts.complete_eq_zero reading.inside part⟩

theorem Reading.followed (reading : Reading s fd conn) : Followed conn := by
  obtain ⟨handled, none_⟩ := reading.none_
  refine ⟨?_, .inl reading.listening⟩
  rw [handled, none_]
  rfl

theorem Done.followed (done : Done conn) : Followed conn where
  once := by
    obtain ⟨tag, all, handled⟩ := done.only
    have one : conn.complete = 1 := by
      unfold Connection.complete
      rw [done.taken, Stream.bytes, List.length_append, Nat.add_sub_cancel_left, all, List.flatMap_singleton, complete,
        if_pos (Nat.le_refl _), Nat.sub_self]
      rfl
    rw [handled, one, all]
    rfl
  heard := .inr (.inr done.taken)

theorem Inv.isolated (inv : Inv s) : Isolated s := by
  cases inv with
  | untouched sound _ tsFiles playlists idle =>
    refine ⟨sound, fun fd conn known => (idle fd conn known).followed, fun file member => ?_,
      fun channel pieces known => ?_⟩
    · rw [tsFiles] at member
      cases member
    · rw [playlists] at known
      cases known
  | served sound _ owner conn known mine owned others =>
    refine ⟨sound, fun fd other found => ?_, fun file member channel here frame written => ?_,
      fun channel pieces listed => ?_⟩
    · by_cases same : fd = owner
      · subst same
        obtain rfl := Option.some.inj (known.symm.trans found)
        rcases mine with reading | gone | done
        · exact reading.followed
        · exact gone.followed
        · exact done.followed
      · exact (others fd other same found).followed
    · obtain ⟨directory, frames⟩ := owned.files file member
      obtain rfl := directoryOf_inj (directory.symm.trans here)
      exact ⟨owner, conn, known, rfl, frames frame written⟩
    · obtain ⟨same, lists⟩ := owned.playlist _ pieces listed
      obtain rfl := playlistOf_inj same
      exact lists

/-! ### Steps that leave a stream alone -/

theorem Idle.frame (idle : Idle s fd conn) (pool : s.pool conn.channel = some (.start fd) →
    s'.pool conn.channel = some (.start fd)) :
    Idle s' fd conn :=
  idle.imp_left fun waiting => ⟨waiting.listening, waiting.taken, waiting.handled, pool waiting.pooled⟩

theorem Reading.frame (reading : Reading s fd conn)
    (pool : ∀ viewer, s.pool conn.channel = some viewer → s'.pool conn.channel = some viewer)
    (statics : s'.statics = s.statics) (tsFiles : s'.tsFiles = s.tsFiles) (playlists : s'.playlists = s.playlists) :
    Reading s' fd conn := by
  obtain ⟨viewer, pooled, begun, part, course⟩ := reading.call
  refine ⟨reading.listening, reading.inside, viewer, pool viewer pooled, begun, part, ?_⟩
  unfold Process.call
  rw [statics, tsFiles, playlists]
  exact course

/-! ### Requests -/

theorem update_ne {pool : List UInt8 → Option Viewer} {channel other : List UInt8} {viewer : Viewer}
    {new : Option Viewer}
    (pooled : pool other = some viewer) (away : pool channel ≠ some viewer) :
    Function.update pool channel new other = some viewer := by
  rw [Function.update_of_ne, pooled]
  rintro rfl
  exact away pooled

theorem join_inv {channel : List UInt8} {stream : Stream} (inv : Inv s) (named : channel ≠ [])
    (free : s.pool channel = none) (new : s.connections fd = none) : Inv (s.join channel named fd stream) := by
  have kept : ∀ other viewer, s.pool other = some viewer → (s.join channel named fd stream).pool other = some viewer :=
    fun other viewer pooled => update_ne pooled (by rw [free]; exact (Option.some_ne_none _).symm)
  have idle : ∀ other conn, (s.connections other = some conn → Idle s other conn) →
      (s.join channel named fd stream).connections other = some conn →
        Idle (s.join channel named fd stream) other conn := by
    intro other conn before found
    unfold Process.join at found
    dsimp only at found
    rw [Function.update_apply] at found
    split at found
    · next here =>
      obtain rfl := Option.some.inj found
      subst here
      exact .inl ⟨rfl, rfl, rfl, Function.update_self _ _ _⟩
    · exact (before found).frame (kept _ _)
  cases inv with
  | untouched sound statics tsFiles playlists all =>
    exact .untouched sound statics tsFiles playlists fun other conn => idle other conn (all other conn)
  | served sound first owner conn known mine owned others =>
    have known' : (s.join channel named fd stream).connections owner = some conn := by
      unfold Process.join
      dsimp only
      rw [Function.update_of_ne, known]
      rintro rfl
      rw [new] at known
      cases known
    refine .served sound first owner conn known' ?_ owned fun other conn away =>
      idle other conn (others other conn away)
    exact mine.imp_left fun reading => reading.frame (kept _) rfl rfl rfl

def Connection.retired (conn : Connection) : Connection := { conn with listening := false, ended := true }

theorem Idle.retired (idle : Idle s fd conn) : Gone conn.retired := by
  rcases idle with waiting | gone
  · exact ⟨rfl, rfl, waiting.handled, waiting.none_⟩
  · exact ⟨rfl, rfl, gone.handled, gone.none_⟩

theorem takeOff_connections {channel : List UInt8} {gone other : Nat}
    (found : (s.takeOff channel gone).connections other = some conn) :
    (other = gone ∧ ∃ old, s.connections gone = some old ∧ conn = old.retired) ∨
      (other ≠ gone ∧ s.connections other = some conn) := by
  unfold Process.takeOff at found
  dsimp only at found
  rw [Function.update_apply] at found
  split at found
  · next here =>
    obtain ⟨old, known, rfl⟩ := Option.map_eq_some_iff.mp found
    exact .inl ⟨here, old, known, rfl⟩
  · next away => exact .inr ⟨away, found⟩

theorem takeOff_inv {channel : List UInt8} (inv : Inv s) (pooled : s.pool channel = some viewer) :
    Inv (s.takeOff channel viewer.fd) := by
  -- the channel that is erased is that of no other descriptor
  have kept : ∀ fd other channel', other.fd = fd → fd ≠ viewer.fd → s.pool channel' = some other →
      (s.takeOff channel viewer.fd).pool channel' = some other := by
    intro fd other channel' watcher away found
    refine update_ne found fun same => away ?_
    rw [pooled] at same
    rw [Option.some.inj same, watcher]
  have idle : ∀ other conn, (∀ conn, s.connections other = some conn → Idle s other conn) →
      (s.takeOff channel viewer.fd).connections other = some conn → Idle (s.takeOff channel viewer.fd) other conn := by
    intro other conn before found
    rcases takeOff_connections found with ⟨rfl, old, known, rfl⟩ | ⟨away, known⟩
    · exact .inr (before old known).retired
    · exact (before conn known).frame (kept other (.start other) _ rfl away)
  cases inv with
  | untouched sound statics tsFiles playlists all =>
    exact .untouched sound statics tsFiles playlists fun other conn => idle other conn (all other)
  | served sound first owner conn known mine owned others =>
    have rest : ∀ other conn, other ≠ owner → (s.takeOff channel viewer.fd).connections other = some conn →
        Idle (s.takeOff channel viewer.fd) other conn := fun other conn away =>
      idle other conn fun conn => others other conn away
    by_cases here : owner = viewer.fd
    · subst here
      have known' : (s.takeOff channel viewer.fd).connections viewer.fd = some conn.retired := by
        unfold Process.takeOff
        dsimp only
        rw [Function.update_self, known]
        rfl
      refine .served sound first _ conn.retired known' (.inr ?_) owned rest
      rcases mine with reading | gone | done
      · exact .inl ⟨rfl, rfl, reading.none_.1, reading.none_.2⟩
      · exact .inl ⟨rfl, rfl, gone.handled, gone.none_⟩
      · exact .inr ⟨rfl, done.only, done.taken⟩
    · have known' : (s.takeOff channel viewer.fd).connections owner = some conn := by
        unfold Process.takeOff
        dsimp only
        rw [Function.update_of_ne here, known]
      refine .served sound first owner conn known' ?_ owned rest
      refine mine.imp_left fun reading => ?_
      obtain ⟨mineViewer, found, _, _, course⟩ := reading.call
      refine reading.frame (fun other found' => ?_) rfl rfl rfl
      obtain rfl := Option.some.inj (found.symm.trans found')
      exact kept owner mineViewer _ course.watcher here found

theorem receiveRequestCb_inv {httpRequest : List UInt8} {connection : Option (Nat × Stream)} (inv : Inv s)
    (next : s.receiveRequestCb httpRequest connection = some s') : Inv s' := by
  unfold Process.receiveRequestCb at next
  dsimp only at next
  split at next
  · obtain rfl := Option.some.inj next
    exact inv
  split at next
  · obtain rfl := Option.some.inj next
    exact inv
  split at next
  · obtain rfl := Option.some.inj next
    exact inv
  split at next
  · split at next
    · obtain rfl := Option.some.inj next
      exact inv
    · next viewer pooled =>
      obtain rfl := Option.some.inj next
      exact takeOff_inv inv pooled
  split at next
  · obtain rfl := Option.some.inj next
    exact inv
  · next free =>
    split at next
    · obtain rfl := Option.some.inj next
      exact inv
    · split at next
      · cases next
      · next fd stream new =>
        obtain rfl := Option.some.inj next
        exact join_inv inv _ (Option.not_isSome_iff_eq_none.mp free) (Option.not_isSome_iff_eq_none.mp new)

/-! ### Calls -/

theorem after_others {listening : Bool} {new : Option Viewer} {c : Call} (pooled : s.pool conn.channel = some viewer)
    (watcher : viewer.fd = fd) (others : ∀ other conn, other ≠ fd → s.connections other = some conn →
      Idle s other conn) :
    ∀ other conn', other ≠ fd → (s.after fd conn socket listening new c).connections other = some conn' →
      Idle (s.after fd conn socket listening new c) other conn' := by
  intro other conn' away found
  unfold Process.after at found
  dsimp only at found
  rw [Function.update_of_ne away] at found
  refine (others other conn' away found).frame fun waiting => ?_
  refine update_ne waiting fun same => away ?_
  rw [pooled] at same
  rw [← watcher, Option.some.inj same]
  rfl

theorem fclose_eq (open_ : s.statics.ftsHandler ≠ .closed) :
    ∃ statics : Statics, s.fclose = { s with statics } ∧ statics.readHttpReplyFirst = s.statics.readHttpReplyFirst := by
  unfold Process.fclose
  split
  · exact ⟨s.statics, rfl, rfl⟩
  · exact ⟨_, rfl, rfl⟩
  · next closed => exact absurd closed open_

theorem Course.withSocket {stream : Stream} {channel : List UInt8} {c : Call} (course : Course stream channel fd c)
    (socket : List (Socket.ReadEvent UInt8)) : Course stream channel fd { c with socket } where
  watcher := course.watcher
  parts := course.parts
  sized := course.sized
  handled := course.handled
  first := course.first
  owned := course.owned
  ready := by
    rcases course.ready with opening | running
    · exact .inl ⟨opening.statics, opening.tsFiles, opening.playlists, opening.short, opening.urls⟩
    · exact .inr ⟨⟨running.header, running.theFirst, running.config, running.decoder, running.aac, running.avc,
        running.h264Pts, running.listed, running.urls⟩, running.handler, running.tsFiles⟩

/-- Where a call ends as it should, the stream is the one that the static variables are about. -/
theorem receive_served (sound : s.fault = false) (pooled : s.pool conn.channel = some viewer) (watcher : viewer.fd = fd)
    (others : ∀ other conn, other ≠ fd → s.connections other = some conn → Idle s other conn)
    (ends : Ended conn.stream conn.channel fd (Socket.stops socket)
      (receiveStreamCb setting conn.channel (s.call conn viewer socket)))
    (next : s.receive fd conn viewer setting socket = some s') : Inv s' := by
  unfold Process.receive at next
  unfold Process.call at ends
  generalize receiveStreamCb setting conn.channel _ = result at ends next
  cases result with
  | hangs => cases next
  | outside => exact ends.elim
  | deleted c =>
    obtain ⟨left, told⟩ := ends
    obtain rfl := Option.some.inj next
    obtain ⟨statics, closed, first⟩ := @fclose_eq (s.after fd conn socket false none c) left.handler
    have idle := @after_others s fd conn viewer socket false none c pooled watcher others
    rw [closed]
    refine .served sound (first.trans left.first) fd _ (Function.update_self _ _ _)
      (.inr (.inl ⟨rfl, ?_, left.handled, left.none_⟩))
      left.owned fun other conn' away found => (idle other conn' away found).frame id
    show (conn.ended || decide (Socket.stops c.socket < Socket.stops socket)) = true
    rw [decide_eq_true told, Bool.or_true]
  | returns c =>
    obtain ⟨course, begun, part, inside⟩ := ends
    obtain rfl := Option.some.inj next
    exact .served sound course.first fd _ (Function.update_self _ _ _)
      (.inl ⟨rfl, inside, c.viewer, Function.update_self _ _ _, begun, part, course.withSocket []⟩) course.owned
      (after_others pooled watcher others)
  | stops c =>
    obtain rfl := Option.some.inj next
    exact .served sound ends.first fd _ (Function.update_self _ _ _)
      (.inr (.inr ⟨rfl, ends.only, ends.taken⟩)) ends.owned
      (after_others pooled watcher others)

theorem receive_unreplied {c : Call} (sound : s.fault = false) (statics : c.statics = .start) (tsFiles : c.tsFiles = [])
    (playlists : c.playlists = fun _ => none) (handled : c.handled = []) (pooled : s.pool conn.channel = some viewer)
    (watcher : viewer.fd = fd) (others : ∀ other conn, s.connections other = some conn → Idle s other conn)
    (told : Socket.stops c.socket < Socket.stops socket) (short : c.taken.length < conn.stream.reply.length) :
    Inv (s.after fd conn socket false none c).fclose := by
  have same : (s.after fd conn socket false none c).fclose = s.after fd conn socket false none c := by
    unfold Process.fclose Process.after
    dsimp only
    rw [statics]
    rfl
  rw [same]
  refine .untouched sound statics tsFiles playlists fun other conn' found => ?_
  by_cases here : other = fd
  · subst here
    unfold Process.after at found
    dsimp only at found
    rw [Function.update_self] at found
    obtain rfl := Option.some.inj found
    refine .inr ⟨rfl, ?_, handled, ?_⟩
    · show (conn.ended || decide (Socket.stops c.socket < Socket.stops socket)) = true
      rw [decide_eq_true told, Bool.or_true]
    · unfold Connection.complete
      have opening : conn.stream.opening.length = conn.stream.reply.length + conn.stream.flvHeader.length :=
        List.length_append
      rw [show c.taken.length - conn.stream.opening.length = 0 by omega]
      exact complete_zero _
  · exact after_others pooled watcher (fun other conn _ => others other conn) other conn' here found

theorem receive_inv (inv : Inv s) (known : s.connections fd = some conn) (listening : conn.listening)
    (inside : conn.taken ++ Socket.incoming socket <+: conn.stream.bytes) (pooled : s.pool conn.channel = some viewer)
    (alone : Alone s.statics conn viewer setting socket) (next : s.receive fd conn viewer setting socket = some s') :
    Inv s' := by
  have within : Within conn.stream (conn.taken.length + (Socket.incoming socket).length)
    (Socket.stops socket) conn.taken socket :=
    ⟨inside, rfl, Nat.le_refl _⟩
  cases inv with
  | untouched sound statics tsFiles playlists idle =>
    rcases idle fd conn known with waiting | gone
    · obtain rfl := Option.some.inj (waiting.pooled.symm.trans pooled)
      have first : s.statics.readHttpReplyFirst := by
        rw [statics]
        rfl
      have divided : Divided .start setting → Divided s.statics setting := by
        rw [statics]
        exact id
      have call : s.call conn (.start fd) socket = ⟨.start, [], s.playlists, .start fd, socket, [], []⟩ := by
        unfold Process.call
        rw [statics, tsFiles, waiting.taken, waiting.handled]
      rw [waiting.taken] at within
      have last := alone.last
      rw [waiting.taken] at last
      rcases receiveStreamCb_first conn.named playlists within (alone.prompt first) divided last with
        ends | ⟨stored, rest, ended, told, short⟩
      · rw [← call] at ends
        exact receive_served sound pooled rfl (fun other conn _ => idle other conn) ends next
      · unfold Process.receive at next
        rw [← call] at ended
        unfold Process.call at ended
        rw [ended] at next
        obtain rfl := Option.some.inj next
        exact receive_unreplied sound rfl rfl playlists rfl pooled rfl idle told short
    · rw [gone.quiet] at listening
      cases listening
  | served sound first owner conn' known' mine owned others =>
    by_cases here : fd = owner
    · subst here
      obtain rfl := Option.some.inj (known.symm.trans known')
      rcases mine with reading | gone | done
      · obtain ⟨viewer', pooled', _, _, course⟩ := reading.call
        obtain rfl := Option.some.inj (pooled.symm.trans pooled')
        exact receive_served sound pooled course.watcher others
          (receiveStreamCb_course (course.withSocket socket) conn.named within id alone.last) next
      · rw [gone.quiet] at listening
        cases listening
      · rw [done.quiet] at listening
        cases listening
    · rcases others fd conn here known with waiting | gone
      · obtain rfl := Option.some.inj (waiting.pooled.symm.trans pooled)
        have unread := alone.only rfl
        rw [first] at unread
        cases unread
      · rw [gone.quiet] at listening
        cases listening

theorem Inv.pooled (inv : Inv s) (known : s.connections fd = some conn) (listening : conn.listening) :
    ∃ viewer, s.pool conn.channel = some viewer := by
  have idle : Idle s fd conn → ∃ viewer, s.pool conn.channel = some viewer := by
    rintro (waiting | gone)
    · exact ⟨_, waiting.pooled⟩
    · rw [gone.quiet] at listening
      cases listening
  cases inv with
  | untouched _ _ _ _ all => exact idle (all fd conn known)
  | served _ _ owner conn' known' mine _ others =>
    by_cases here : fd = owner
    · subst here
      obtain rfl := Option.some.inj (known.symm.trans known')
      rcases mine with reading | gone | done
      · exact ⟨_, reading.call.choose_spec.1⟩
      · exact idle (.inr gone)
      · rw [done.quiet] at listening
        cases listening
    · exact idle (others fd conn here known)

theorem step_inv {e : Event} (inv : Inv s) (ok : Undisturbed s e) (next : step s e = some s') : Inv s' := by
  cases e with
  | request httpRequest connection =>
    unfold step at next
    dsimp only at next
    split at next
    · cases next
    · exact receiveRequestCb_inv inv next
  | receive fd setting socket =>
    unfold step at next
    dsimp only at next
    split at next
    · cases next
    split at next
    · cases next
    · next conn known =>
      split at next
      · next guard_ =>
        split at next
        · next missing =>
          obtain ⟨viewer, pooled⟩ := inv.pooled known guard_.1
          rw [missing] at pooled
          cases pooled
        · next viewer pooled =>
          exact receive_inv inv known guard_.1 guard_.2 pooled (ok conn viewer known pooled) next
      · cases next

def sampleReply : List UInt8 := Library.CString.ascii "HTTP/1.1 200 OK\r\n\r\n"

theorem sampleReply_replied : HttpReply sampleReply :=
  @HttpReply.of_line (Library.CString.ascii "HTTP/1.1 200 OK") (by decide +kernel) 10 13

def samplePicture : FlvTag where
  previousTagSize := [0, 0, 0, 0]
  header := [9, 0, 0, 7, 0, 0, 0, 0, 0, 0, 0]
  data := [0x17, 1, 0, 0, 0, 0x65, 0x88]
  previousTagSize_length := rfl
  header_length := rfl
  data_length := rfl

def sampleStream (tags : List FlvTag) : Stream where
  reply := sampleReply
  flvHeader := [0x46, 0x4C, 0x56, 1, 5, 0, 0, 0, 9]
  tags
  replied := sampleReply_replied
  reply_length := by decide
  flvHeader_length := rfl

def sampleSetting : Setting where
  header := ⟨fun _ => 1, false, List.replicate 20 0⟩
  timestamp := 100
  now := 101
  later := 101
  started := by decide
  ordered := by decide
  keyFlag := false
  pes := blankPes
  head := blankField
  tail := blankField

def inPieces (bytes : List UInt8) (n : Nat) : List (Socket.ReadEvent UInt8) :=
  match bytes.take n, bytes.drop n with
  | b :: bs, c :: cs => [.data b bs, .data c cs]
  | _, _ => []

end LiveStreaming.HappyHls.ReceiveStream
