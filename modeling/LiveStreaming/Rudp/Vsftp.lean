import Mathlib.Data.List.Infix
import LiveStreaming.Library.FirstMatch
import LiveStreaming.Library.SeekableFile

/-!
# The programs that transfer files

`vs_send.cpp` passes the messages of a file to `rudp_sendto`, and `vs_recv.cpp` writes what it is handed. `write` is
taken to write all it is given.
-/

namespace LiveStreaming.Rudp
open Library Library.FirstMatch

def VS_MINLEN : Nat := 4
def VS_FILENAMELENGTH : Nat := 128
def VS_MAXDATA : Nat := 128
def VS_TYPE_BEGIN : Nat := 1
def VS_TYPE_DATA : Nat := 2
def VS_TYPE_END : Nat := 3

/-- `sin_family` is `AF_INET` in all of them. -/
structure SockaddrIn where
  sinPort : UInt16
  sinAddr : UInt32
deriving DecidableEq

def htonl (n : Nat) : List UInt8 :=
  [UInt8.ofNat (n / 16777216), UInt8.ofNat (n / 65536), UInt8.ofNat (n / 256), UInt8.ofNat n]

def ntohl (buf : List UInt8) : Nat := (buf.take 4).foldl (fun n byte => n * 256 + byte.toNat) 0

theorem ntohl_htonl {n : Nat} (small : n < 4294967296) (rest : List UInt8) : ntohl (htonl n ++ rest) = n := by
  rw [ntohl, htonl]
  simp only [List.cons_append, List.nil_append, List.take_succ_cons, List.take_zero, List.foldl_cons, List.foldl_nil,
    UInt8.toNat_ofNat']
  omega

/-- `struct vsftp` with as much of `vs_info` as is sent. -/
def vsftp (type : Nat) (info : List UInt8) : List UInt8 := htonl type ++ info

/-- What follows the last slash. -/
def filename1 (filename : List UInt8) : List UInt8 := (filename.reverse.takeWhile (· ≠ 47)).reverse

def toPeers (peers : List SockaddrIn) (vs : List UInt8) : List (SockaddrIn × List UInt8) := peers.map fun p => (p, vs)

def sendFile (peers : List SockaddrIn) (filename : List UInt8) : List (SockaddrIn × List UInt8) :=
  toPeers peers (vsftp VS_TYPE_BEGIN ((filename1 filename).take VS_FILENAMELENGTH))

/-- `bytes` is what `read` gave, none at the end of the file. -/
def filesender (peers : List SockaddrIn) (bytes : List UInt8) : List (SockaddrIn × List UInt8) :=
  if bytes = [] then toPeers peers (vsftp VS_TYPE_END []) else toPeers peers (vsftp VS_TYPE_DATA bytes)

/-- All that `vs_send` passes to `rudp_sendto` for one file. Where a call fails, it stops there. -/
def vsSend (peers : List SockaddrIn) (filename : List UInt8) (reads : List (List UInt8)) :
    List (SockaddrIn × List UInt8) :=
  sendFile peers filename ++ reads.flatMap (filesender peers) ++ filesender peers []

/-- `creat` gives one at the front. -/
structure Fd where
  name : List UInt8
  offset : Nat

structure RxFile where
  fileopen : Bool
  fd : Option Fd
  remote : SockaddrIn
  name : List UInt8

def RxFile.Writes (name : List UInt8) (rx : RxFile) : Prop := rx.fileopen ∧ ∃ offset, rx.fd = some ⟨name, offset⟩

/-- `files` is what the directory holds, and `closing` is set once `rudp_close` was called. -/
structure VsRecv where
  rxhead : List RxFile
  files : List UInt8 → Option (List UInt8)
  closing : Bool

/-- `isalnum` and the three others. -/
def legal (c : UInt8) : Bool :=
  (48 ≤ c && c ≤ 57) || (65 ≤ c && c ≤ 90) || (97 ≤ c && c ≤ 122) || c == 46 || c == 95 || c == 45

namespace VsRecv

/-- `memcmp` looks at as many bytes as a `struct in_addr` has, which are those of the family and the port. -/
def same (addr : SockaddrIn) (rx : RxFile) : Bool := rx.remote.sinPort = addr.sinPort

def rx (v : VsRecv) (addr : SockaddrIn) : Option RxFile := v.rxhead.find? (same addr)

def rxfind (v : VsRecv) (addr : SockaddrIn) : VsRecv × RxFile :=
  match v.rx addr with
  | some rx => (v, rx)
  | none =>
    let rx := ⟨false, none, addr, []⟩
    ({ v with rxhead := rx :: v.rxhead }, rx)

/-- What is assigned to the record that `rxfind` gave. -/
def rxset (v : VsRecv) (addr : SockaddrIn) (f : RxFile → RxFile) : VsRecv :=
  { v with rxhead := change (same addr) f v.rxhead }

def rxdel (v : VsRecv) (addr : SockaddrIn) : VsRecv := { v with rxhead := v.rxhead.eraseP (same addr) }

/-- `strncpy` stops at a zero and fills up with zeros, which no legal name has. -/
def receiveBegin (v : VsRecv) (created : Bool) (remote : SockaddrIn) (info : List UInt8) : VsRecv :=
  let name := info.take VS_FILENAMELENGTH
  let v := v.rxset remote fun rx => { rx with name }
  if ¬name.all legal then { v with closing := true }
  else if created then
    { v.rxset remote fun rx => { rx with fd := some ⟨name, 0⟩, fileopen := true } with
      files := Function.update v.files name (some []) }
  else { v.rxset remote fun rx => { rx with fd := none } with closing := true }

def receiveData (v : VsRecv) (remote : SockaddrIn) (rx : RxFile) (info : List UInt8) : VsRecv :=
  if rx.fileopen then
    match rx.fd with
    | none => v
    | some fd =>
      let file := SeekableFile.write ⟨(v.files fd.name).getD [], fd.offset⟩ info
      { v.rxset remote fun rx => { rx with fd := some ⟨fd.name, file.pos⟩ } with
        files := Function.update v.files fd.name (some file.bytes) }
  else v

def receiveEnd (v : VsRecv) (remote : SockaddrIn) (rx : RxFile) : VsRecv :=
  if rx.fileopen then v.rxdel remote else v

/-- `created` is whether `creat` succeeds, if it is called. -/
def rudpReceiver (created : Bool) (v : VsRecv) (remote : SockaddrIn) (buf : List UInt8) : VsRecv :=
  if buf.length < VS_MINLEN then v
  else
    let (v, rx) := v.rxfind remote
    if ntohl buf = VS_TYPE_BEGIN then v.receiveBegin created remote (buf.drop 4)
    else if ntohl buf = VS_TYPE_DATA then v.receiveData remote rx (buf.drop 4)
    else if ntohl buf = VS_TYPE_END then v.receiveEnd remote rx
    else v

/-- `RUDP_EVENT_TIMEOUT` and `RUDP_EVENT_CLOSED`. -/
def eventhandler (v : VsRecv) (remote : SockaddrIn) : VsRecv := (v.rxfind remote).1.rxdel remote

variable {v : VsRecv} {a c : SockaddrIn} {name info content : List UInt8} {created : Bool}

theorem same_apart (other : c.sinPort ≠ a.sinPort) (rx : RxFile) : same c rx → ¬same a rx := by
  intro here there
  exact other ((of_decide_eq_true here).symm.trans (of_decide_eq_true there))

theorem rxfind_rx : (v.rxfind a).1.rx a = some (v.rxfind a).2 := by
  rw [rxfind]
  split
  · next known => exact known
  · exact List.find?_cons_of_pos (decide_eq_true rfl)

theorem rxfind_other (other : c.sinPort ≠ a.sinPort) : (v.rxfind c).1.rx a = v.rx a := by
  rw [rxfind]
  split
  · rfl
  · exact List.find?_cons_of_neg (same_apart other _ (decide_eq_true rfl))

theorem rxfind_files : (v.rxfind c).1.files = v.files := by
  rw [rxfind]
  split <;> rfl

theorem rxset_rx {rx : RxFile} (known : v.rx a = some rx) {f : RxFile → RxFile}
    (keeps : ∀ rx, (f rx).remote = rx.remote) : (v.rxset a f).rx a = some (f rx) :=
  (find?_change (fun rx => by rw [same, same, keeps]) v.rxhead).trans (congrArg (Option.map f) known)

theorem rxset_other (other : c.sinPort ≠ a.sinPort) {f : RxFile → RxFile} (keeps : ∀ rx, (f rx).remote = rx.remote) :
    (v.rxset c f).rx a = v.rx a :=
  find?_change_other (same_apart other) (fun rx => by rw [same, same, keeps]) v.rxhead

theorem rxdel_other (other : c.sinPort ≠ a.sinPort) : (v.rxdel c).rx a = v.rx a :=
  find?_eraseP_other (same_apart other) v.rxhead

/-- The name that a message asks `creat` for. -/
def begun (buf : List UInt8) : Option (List UInt8) :=
  if VS_MINLEN ≤ buf.length ∧ ntohl buf = VS_TYPE_BEGIN then some ((buf.drop 4).take VS_FILENAMELENGTH) else none

/-- Only the records of the port of `a` write to the file. -/
def Apart (a : SockaddrIn) (name : List UInt8) (v : VsRecv) : Prop :=
  ∀ rx ∈ v.rxhead, rx.remote.sinPort ≠ a.sinPort → ¬rx.Writes name

theorem apart_rxfind (apart : Apart a name v) :
    Apart a name (v.rxfind c).1 ∧ (c.sinPort ≠ a.sinPort → ¬(v.rxfind c).2.Writes name) := by
  rw [rxfind]
  split
  · next rx known =>
    refine ⟨apart, fun other => apart rx (List.mem_of_find?_eq_some known) fun mine => other ?_⟩
    have here : same c rx := by
      rw [VsRecv.rx] at known
      exact List.find?_some known
    exact (of_decide_eq_true here).symm.trans mine
  · refine ⟨fun rx member => ?_, fun _ writes => absurd writes.1 Bool.false_ne_true⟩
    rcases List.mem_cons.mp member with rfl | before
    · exact fun _ writes => absurd writes.1 Bool.false_ne_true
    · exact apart rx before

theorem apart_rxset (apart : Apart a name v) {f : RxFile → RxFile} (keeps : ∀ rx, (f rx).remote = rx.remote)
    (writes : ∀ rx, c.sinPort ≠ a.sinPort → ¬rx.Writes name → ¬(f rx).Writes name) : Apart a name (v.rxset c f) := by
  intro rx member other
  rcases mem_change member with before | ⟨rx, before, here, rfl⟩
  · exact apart rx before other
  · rw [keeps] at other
    exact writes rx (fun mine => other ((of_decide_eq_true here).trans mine)) (apart rx before other)

theorem apart_rxdel (apart : Apart a name v) : Apart a name (v.rxdel c) :=
  fun rx member => apart rx (List.mem_of_mem_eraseP member)

theorem receiveBegin_apart (apart : Apart a name v)
    (names : c.sinPort ≠ a.sinPort → info.take VS_FILENAMELENGTH ≠ name) :
    Apart a name (v.receiveBegin created c info) := by
  have named : Apart a name (v.rxset c fun rx => { rx with name := info.take VS_FILENAMELENGTH }) :=
    apart_rxset apart (fun _ => rfl) fun _ _ quiet => quiet
  rw [receiveBegin]
  split
  · exact named
  · split
    · refine apart_rxset named (fun _ => rfl) fun rx other _ => ?_
      rintro ⟨-, offset, is⟩
      exact names other (congrArg Fd.name (Option.some.inj is))
    · refine apart_rxset named (fun _ => rfl) fun rx other _ => ?_
      rintro ⟨-, offset, is⟩
      cases is

theorem receiveData_apart (apart : Apart a name v) {rx : RxFile} (quiet : c.sinPort ≠ a.sinPort → ¬rx.Writes name) :
    Apart a name (v.receiveData c rx info) := by
  rw [receiveData]
  split
  · next opened =>
    split
    · exact apart
    · next fd is =>
      refine apart_rxset apart (fun _ => rfl) fun _ other _ => ?_
      rintro ⟨-, offset, same_file⟩
      obtain rfl : fd.name = name := congrArg Fd.name (Option.some.inj same_file)
      exact quiet other ⟨opened, fd.offset, is⟩
  · exact apart

theorem rudpReceiver_apart (apart : Apart a name v) {buf : List UInt8}
    (names : c.sinPort ≠ a.sinPort → begun buf ≠ some name) : Apart a name (v.rudpReceiver created c buf) := by
  rw [rudpReceiver]
  split
  · exact apart
  · next long =>
    obtain ⟨found, quiet⟩ := apart_rxfind apart
    dsimp only
    split
    · next type =>
      refine receiveBegin_apart found fun other is => names other ?_
      rw [begun, if_pos ⟨Nat.le_of_not_lt long, type⟩, is]
    · split
      · exact receiveData_apart found quiet
      · split
        · rw [receiveEnd]
          split
          · exact apart_rxdel found
          · exact found
        · exact found

theorem receiveBegin_other (other : c.sinPort ≠ a.sinPort) : (v.receiveBegin created c info).rx a = v.rx a := by
  have named : (v.rxset c fun rx => { rx with name := info.take VS_FILENAMELENGTH }).rx a = v.rx a :=
    rxset_other other fun _ => rfl
  rw [receiveBegin]
  split
  · exact named
  · rw [← named]
    split
    · exact rxset_other other fun _ => rfl
    · exact rxset_other other fun _ => rfl

theorem receiveBegin_stored (differ : name ≠ info.take VS_FILENAMELENGTH) :
    (v.receiveBegin created c info).files name = v.files name := by
  rw [receiveBegin]
  split
  · rfl
  · split
    · exact Function.update_of_ne differ _ _
    · rfl

theorem receiveData_other (other : c.sinPort ≠ a.sinPort) {rx : RxFile} :
    (v.receiveData c rx info).rx a = v.rx a := by
  rw [receiveData]
  split
  · split
    · rfl
    · exact rxset_other other fun _ => rfl
  · rfl

theorem receiveData_stored {rx : RxFile} (quiet : ¬rx.Writes name) :
    (v.receiveData c rx info).files name = v.files name := by
  rw [receiveData]
  split
  · next opened =>
    split
    · rfl
    · next fd is =>
      refine Function.update_of_ne ?_ _ _
      rintro rfl
      exact quiet ⟨opened, fd.offset, is⟩
  · rfl

/-- Another port's messages leave the record of `a` and the file alone. -/
theorem rudpReceiver_other (apart : Apart a name v) {buf : List UInt8} (other : c.sinPort ≠ a.sinPort)
    (names : begun buf ≠ some name) :
    (v.rudpReceiver created c buf).rx a = v.rx a ∧ (v.rudpReceiver created c buf).files name = v.files name := by
  rw [rudpReceiver]
  split
  · exact ⟨rfl, rfl⟩
  · next long =>
    have found : (v.rxfind c).1.rx a = v.rx a := rxfind_other other
    have quiet := (apart_rxfind apart).2 other
    rw [← found, ← @rxfind_files v c]
    dsimp only
    split
    · next type =>
      refine ⟨receiveBegin_other other, receiveBegin_stored ?_⟩
      rintro rfl
      exact names (if_pos ⟨Nat.le_of_not_lt long, type⟩)
    · split
      · exact ⟨receiveData_other other, receiveData_stored quiet⟩
      · split
        · rw [receiveEnd]
          split
          · exact ⟨rxdel_other other, rfl⟩
          · exact ⟨rfl, rfl⟩
        · exact ⟨rfl, rfl⟩

theorem rudpReceiver_vsftp {type : Nat} (small : type < 4294967296) :
    v.rudpReceiver created c (vsftp type info) =
      if type = VS_TYPE_BEGIN then (v.rxfind c).1.receiveBegin created c info
      else if type = VS_TYPE_DATA then (v.rxfind c).1.receiveData c (v.rxfind c).2 info
      else if type = VS_TYPE_END then (v.rxfind c).1.receiveEnd c (v.rxfind c).2
      else (v.rxfind c).1 := by
  have long : ¬(vsftp type info).length < VS_MINLEN := by simp [vsftp, htonl, VS_MINLEN]
  have is : ntohl (vsftp type info) = type := ntohl_htonl small info
  rw [rudpReceiver, if_neg long, is]
  rfl

theorem rxfind_known {rx : RxFile} (known : v.rx a = some rx) : v.rxfind a = (v, rx) := by rw [rxfind, known]

/-- The file of `a` is open and holds `content`, all of it written. -/
def Opened (a : SockaddrIn) (name content : List UInt8) (v : VsRecv) : Prop :=
  (∃ rx, v.rx a = some rx ∧ rx.fileopen ∧ rx.fd = some ⟨name, content.length⟩) ∧ v.files name = some content

theorem receiveBegin_opened (fits : name.length ≤ VS_FILENAMELENGTH)
    (going : (v.rudpReceiver created a (vsftp VS_TYPE_BEGIN name)).closing = false) :
    Opened a name [] (v.rudpReceiver created a (vsftp VS_TYPE_BEGIN name)) := by
  have named : ((v.rxfind a).1.rxset a fun rx => { rx with name }).rx a = some { (v.rxfind a).2 with name } :=
    rxset_rx rxfind_rx fun _ => rfl
  rw [rudpReceiver_vsftp (by decide), if_pos rfl, receiveBegin, List.take_of_length_le fits] at going ⊢
  split at going
  · cases going
  · next named_well =>
    rw [if_neg named_well]
    split at going
    · next could =>
      rw [if_pos could]
      refine ⟨⟨_, rxset_rx named fun _ => rfl, rfl, rfl⟩, ?_⟩
      exact Function.update_self ..
    · cases going

theorem receiveData_opened (opened : Opened a name content v) :
    Opened a name (content ++ info) (v.rudpReceiver created a (vsftp VS_TYPE_DATA info)) := by
  obtain ⟨⟨rx, known, fileopen, fd⟩, stored⟩ := opened
  have written : SeekableFile.write ⟨(v.files name).getD [], content.length⟩ info =
      ⟨content ++ info, (content ++ info).length⟩ := by
    rw [stored]
    exact SeekableFile.write_end content info
  rw [rudpReceiver_vsftp (by decide), if_neg (by decide), if_pos rfl, rxfind_known known, receiveData, if_pos fileopen,
    fd]
  dsimp only
  rw [written]
  refine ⟨⟨_, rxset_rx known fun _ => rfl, fileopen, rfl⟩, ?_⟩
  exact Function.update_self name _ _

theorem receiveEnd_files : (v.rudpReceiver created a (vsftp VS_TYPE_END [])).files = v.files := by
  rw [rudpReceiver_vsftp (by decide), if_neg (by decide), if_neg (by decide), if_pos rfl, receiveEnd]
  split
  · exact rxfind_files
  · exact rxfind_files

end VsRecv

/-- The messages of one file for one peer. -/
def messages (name : List UInt8) (reads : List (List UInt8)) : List (List UInt8) :=
  vsftp VS_TYPE_BEGIN name :: reads.map (vsftp VS_TYPE_DATA) ++ [vsftp VS_TYPE_END []]

/-- What `vs_recv` has stored of the file once it was handed the messages. -/
inductive Received (a : SockaddrIn) (name : List UInt8) (reads : List (List UInt8)) (v : VsRecv) :
    List (List UInt8) → Prop where
  | unheard : Received a name reads v []
  | opened (got : List (List UInt8)) (so_far : got <+: reads) (opened : v.Opened a name got.flatten) :
      Received a name reads v (vsftp VS_TYPE_BEGIN name :: got.map (vsftp VS_TYPE_DATA))
  | finished (stored : v.files name = some reads.flatten) : Received a name reads v (messages name reads)

theorem received_same {a : SockaddrIn} {name : List UInt8} {reads heard : List (List UInt8)} {v v' : VsRecv}
    (received : Received a name reads v heard) (record : v'.rx a = v.rx a) (files : v'.files name = v.files name) :
    Received a name reads v' heard := by
  cases received with
  | unheard => exact .unheard
  | opened got so_far opened =>
    refine .opened got so_far ?_
    rw [VsRecv.Opened, record, files]
    exact opened
  | finished stored => exact .finished (files.trans stored)

theorem getElem?_messages (name : List UInt8) (reads : List (List UInt8)) (i : Nat) :
    (messages name reads)[i + 1]? =
      if i < reads.length then (reads.map (vsftp VS_TYPE_DATA))[i]?
      else if i = reads.length then some (vsftp VS_TYPE_END []) else none := by
  rw [messages, List.cons_append, List.getElem?_cons_succ]
  split
  · next before => rw [List.getElem?_append_left (by rwa [List.length_map])]
  · next behind =>
    rw [List.getElem?_append_right (by rw [List.length_map]; exact Nat.le_of_not_lt behind), List.length_map]
    split
    · next last => rw [last, Nat.sub_self]; rfl
    · exact List.getElem?_eq_none (by rw [List.length_singleton]; omega)

/-- `vs_recv` is handed the next message of the file. -/
theorem received_next {a : SockaddrIn} {name x : List UInt8} {reads heard : List (List UInt8)} {v : VsRecv}
    {created : Bool} (received : Received a name reads v heard) (next : heard ++ [x] <+: messages name reads)
    (fits : name.length ≤ VS_FILENAMELENGTH) (going : (v.rudpReceiver created a x).closing = false) :
    Received a name reads (v.rudpReceiver created a x) (heard ++ [x]) := by
  have is_next : (messages name reads)[heard.length]? = some x := by
    obtain ⟨rest, is⟩ := next
    rw [← is]
    simp
  cases received with
  | unheard =>
    have is : vsftp VS_TYPE_BEGIN name = x := Option.some.inj is_next
    rw [← is] at going ⊢
    exact .opened [] List.nil_prefix (VsRecv.receiveBegin_opened fits going)
  | opened got so_far opened =>
    rw [List.length_cons, List.length_map, getElem?_messages] at is_next
    obtain ⟨rest, rfl⟩ := so_far
    split at is_next
    · rw [List.getElem?_map, List.getElem?_append_right (Nat.le_refl _), Nat.sub_self] at is_next
      obtain ⟨data, first, rfl⟩ := Option.map_eq_some_iff.mp is_next
      obtain ⟨rest', rfl⟩ : ∃ rest', rest = data :: rest' := by
        cases rest with
        | nil => cases first
        | cons y rest' =>
          obtain rfl := Option.some.inj first
          exact ⟨rest', rfl⟩
      have more : (v.rudpReceiver created a (vsftp VS_TYPE_DATA data)).Opened a name (got ++ [data]).flatten := by
        rw [List.flatten_append, List.flatten_singleton]
        exact VsRecv.receiveData_opened opened
      have so_far : got ++ [data] <+: got ++ data :: rest' := ⟨rest', List.append_assoc ..⟩
      have longer := Received.opened (got ++ [data]) so_far more
      rwa [List.map_append, ← List.cons_append] at longer
    · split at is_next
      · next all =>
        obtain rfl := Option.some.inj is_next
        obtain rfl : rest = [] := by
          refine List.eq_nil_of_length_eq_zero ?_
          rw [List.length_append] at all
          omega
        rw [List.append_nil]
        refine .finished ?_
        rw [VsRecv.receiveEnd_files]
        exact opened.2
      · cases is_next
  | finished stored =>
    rw [List.getElem?_eq_none (Nat.le_refl _)] at is_next
    cases is_next

/-- With a legal name, and where `creat` succeeds, `vs_recv` has no reason to close its socket. -/
theorem receiver_going {v : VsRecv} {c : SockaddrIn} {name buf : List UInt8} {reads : List (List UInt8)}
    (member : buf ∈ messages name reads) (named_well : name.all legal) (fits : name.length ≤ VS_FILENAMELENGTH) :
    (v.rudpReceiver true c buf).closing = v.closing := by
  have found : (v.rxfind c).1.closing = v.closing := by
    rw [VsRecv.rxfind]
    split <;> rfl
  rw [messages, List.cons_append, List.mem_cons, List.mem_append, List.mem_singleton] at member
  rcases member with rfl | data | rfl
  · rw [VsRecv.rudpReceiver_vsftp (by decide), if_pos rfl, VsRecv.receiveBegin, List.take_of_length_le fits,
      if_neg (not_not.mpr named_well)]
    exact found
  · obtain ⟨info, -, rfl⟩ := List.mem_map.mp data
    rw [VsRecv.rudpReceiver_vsftp (by decide), if_neg (by decide), if_pos rfl, VsRecv.receiveData]
    split
    · split
      · exact found
      · exact found
    · exact found
  · rw [VsRecv.rudpReceiver_vsftp (by decide), if_neg (by decide), if_neg (by decide), if_pos rfl, VsRecv.receiveEnd]
    split
    · exact found
    · exact found

theorem opened_differs (name : List UInt8) {got reads : List (List UInt8)} (so_far : got <+: reads) :
    vsftp VS_TYPE_BEGIN name :: got.map (vsftp VS_TYPE_DATA) ≠ messages name reads := by
  intro same
  have lengths := congrArg List.length same
  have short := so_far.length_le
  rw [messages, List.length_append, List.length_cons, List.length_cons, List.length_map, List.length_map] at lengths
  exact absurd lengths (by simp; omega)

/-- What is stored is a front of the file, and all of it once all messages were handed on. -/
theorem received_content {a : SockaddrIn} {name : List UInt8} {reads heard : List (List UInt8)} {v : VsRecv}
    (received : Received a name reads v heard) :
    heard = [] ∨ ∃ content, v.files name = some content ∧ content <+: reads.flatten ∧
      (heard = messages name reads → content = reads.flatten) := by
  cases received with
  | unheard => exact .inl rfl
  | opened got so_far opened =>
    exact .inr ⟨got.flatten, opened.2, so_far.flatten, fun all => absurd all (opened_differs name so_far)⟩
  | finished stored => exact .inr ⟨reads.flatten, stored, List.prefix_rfl, fun _ => rfl⟩

end LiveStreaming.Rudp
