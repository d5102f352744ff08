import LiveStreaming.Library.CString
import LiveStreaming.Library.OrderedMap
import LiveStreaming.Library.Transition

/-!
# The tulip2p server

Clients say that they are there, commit resources and ask for those of others. The pool of the clients and the
list of the resources know of each other by a copied name and a copied address.
-/

namespace LiveStreaming.Tulip2p
open Library CString

abbrev Id := List UInt8
abbrev Key := List UInt8

/-- The address and the port as they lie in memory. -/
structure SockAddr where
  sinAddr : Vector UInt8 4
  sinPort : UInt16
  deriving DecidableEq

structure ClientInfo where
  address : SockAddr
  deriving DecidableEq

structure ResourceInfo where
  address : SockAddr
  ID : Id
  desc : List UInt8
  deriving DecidableEq

structure Tulip2pHeader where
  method : List UInt8
  serverPath : List UInt8

/-- Beside the two maps of the server: the commits that have been answered, of clients who have not left since. -/
structure Tulip2pServer where
  resourcesList : OrderedMap Key ResourceInfo
  clientsPool : OrderedMap Id ClientInfo
  answered : List (Key × Id)

abbrev Sent := List (SockAddr × List UInt8)

def okReply : List UInt8 := ascii "TULIP2P/2016.2.21 200 OK\r\n\r\n"
def notFoundReply : List UInt8 := ascii "TULIP2P/2016.2.21 404 Not Found\r\n\r\n"

def pingReply (id : Id) : List UInt8 :=
  ascii "TULIP2P/2016.2.21 200 OK\r\nNat-Address:" ++ id ++ ascii "\r\n\r\n"

def queryReply (id : Id) (desc : List UInt8) : List UInt8 :=
  ascii "TULIP2P/2016.2.21 200 Ok\r\nNat-Address:" ++ id ++ ascii "\r\nResource-Desc:" ++ desc ++ ascii "\r\n\r\n"

def transferRequest (resource : Key) (id : Id) : List UInt8 :=
  ascii "TRANSFER /" ++ resource ++ ascii " TULIP2P/2016.2.21\r\nNat-Address:" ++ id ++ ascii "\r\n\r\n"

def noDescription : List UInt8 := ascii "no description"

namespace Tulip2pServer

def start : Tulip2pServer := ⟨.empty, .empty, []⟩

def onPingRequest (s : Tulip2pServer) (id : Id) (clientInfo : ClientInfo) : Tulip2pServer × Sent :=
  if id.isEmpty then (s, [])
  else
    match s.clientsPool.find id with
    | none => ({ s with clientsPool := s.clientsPool.set id clientInfo }, [(clientInfo.address, pingReply id)])
    | some _ => (s, [(clientInfo.address, okReply)])

def onCommitRequest (s : Tulip2pServer) (id : Id) (resource : Key) (desc : List UInt8) : Tulip2pServer × Sent :=
  if id.isEmpty then (s, [])
  else
    match s.clientsPool.find id with
    | none => (s, [])
    | some client =>
      let resourcesList :=
        match s.resourcesList.find resource with
        | none => s.resourcesList.set resource ⟨client.address, id, desc⟩
        | some _ => s.resourcesList
      ({ s with resourcesList, answered := (resource, id) :: s.answered }, [(client.address, okReply)])

def onQueryRequest (s : Tulip2pServer) (id : Id) (resource : Key) : Sent :=
  if id.isEmpty then []
  else
    match s.clientsPool.find id with
    | none => []
    | some client =>
      match s.resourcesList.find resource with
      | none => [(client.address, notFoundReply)]
      | some resourceInfo => [(client.address, queryReply resourceInfo.ID resourceInfo.desc)]

def onTransferRequest (s : Tulip2pServer) (id : Id) (resource : Key) : Sent :=
  if id.isEmpty then []
  else
    match s.clientsPool.find id, s.resourcesList.find resource with
    | some _, some resourceInfo => [(resourceInfo.address, transferRequest resource id)]
    | _, _ => []

def onQuitRequest (s : Tulip2pServer) (id : Id) : Tulip2pServer :=
  if id.isEmpty then s
  else
    match s.clientsPool.find id with
    | none => s
    | some _ => { s with
        clientsPool := s.clientsPool.erase id, answered := s.answered.filter fun commit => commit.2 ≠ id }

end Tulip2pServer

def decimal (n : Nat) : List UInt8 := ascii (toString n)

/-- The name of a client is its address and the port as it is printed without `ntohs`. -/
def cid (address : SockAddr) : Id :=
  (ascii ".").intercalate (address.sinAddr.toList.map fun b => decimal b.toNat) ++ ascii ":" ++
    decimal address.sinPort.toNat

/-- What stands behind the last slash, or everything where there is none. -/
def resourceOf (serverPath : List UInt8) : Key := (serverPath.reverse.takeWhile (· ≠ 47)).reverse

structure Request where
  address : SockAddr
  header : Tulip2pHeader

def Request.id (request : Request) : Id := cid request.address
def Request.resource (request : Request) : Key := resourceOf request.header.serverPath

namespace Tulip2pServer

def handleClientRequest (s : Tulip2pServer) (request : Request) : Tulip2pServer × Sent :=
  if request.header.method = ascii "PING" then s.onPingRequest request.id ⟨request.address⟩
  else if request.header.method = ascii "QUERY" then (s, s.onQueryRequest request.id request.resource)
  else if request.header.method = ascii "COMMIT" then s.onCommitRequest request.id request.resource noDescription
  else if request.header.method = ascii "TRANSFER" then (s, s.onTransferRequest request.id request.resource)
  else if request.header.method = ascii "QUIT" then (s.onQuitRequest request.id, [])
  else (s, [])

def step (s : Tulip2pServer) (request : Request) : Option Tulip2pServer := some (s.handleClientRequest request).1

/-- Every resource that is reported or transferred belongs to a client who is registered, and is asked for at the
client's address. Who has had a commit answered and has not left is named for the resource. -/
structure Truthful (s : Tulip2pServer) : Prop where
  reported : ∀ id resource address text, (address, text) ∈ s.onQueryRequest id resource →
    text = notFoundReply ∨ ∃ info, s.resourcesList.find resource = some info ∧
      text = queryReply info.ID info.desc ∧ (s.clientsPool.find info.ID).isSome
  forwarded : ∀ id resource address text, (address, text) ∈ s.onTransferRequest id resource →
    ∃ info client, s.resourcesList.find resource = some info ∧ s.clientsPool.find info.ID = some client ∧
      address = client.address ∧ text = transferRequest resource id
  committed : ∀ resource client, (resource, client) ∈ s.answered → ∀ id address text,
    (address, text) ∈ s.onQueryRequest id resource → ∃ desc, text = queryReply client desc

/-- The two maps agree, and the list has every commit that has been answered. -/
structure Consistent (s : Tulip2pServer) : Prop where
  owners : ∀ resource info, s.resourcesList.find resource = some info →
    s.clientsPool.find info.ID = some ⟨info.address⟩
  answered : ∀ resource client, (resource, client) ∈ s.answered →
    ∃ info, s.resourcesList.find resource = some info ∧ info.ID = client

/-- Nobody leaves who has a resource in the list, and a registered client commits no other's resource. -/
def Keeps (s : Tulip2pServer) (request : Request) : Prop :=
  (request.header.method = ascii "QUIT" → ∀ resource info, s.resourcesList.find resource = some info →
    info.ID ≠ request.id) ∧
  (request.header.method = ascii "COMMIT" → (s.clientsPool.find request.id).isSome →
    ∀ info, s.resourcesList.find request.resource = some info → info.ID = request.id)

variable {s s' : Tulip2pServer} {id : Id} {resource : Key}

/-! ### What is sent -/

theorem query_cases {address : SockAddr} {text : List UInt8} (sent : (address, text) ∈ s.onQueryRequest id resource) :
    (s.resourcesList.find resource = none ∧ text = notFoundReply) ∨
      ∃ info, s.resourcesList.find resource = some info ∧ text = queryReply info.ID info.desc := by
  unfold onQueryRequest at sent
  split at sent
  · cases sent
  · split at sent
    · cases sent
    · split at sent
      · next absent => exact .inl ⟨absent, (Prod.mk.inj (List.mem_singleton.mp sent)).2⟩
      · next info found => exact .inr ⟨info, found, (Prod.mk.inj (List.mem_singleton.mp sent)).2⟩

theorem transfer_cases {address : SockAddr} {text : List UInt8}
    (sent : (address, text) ∈ s.onTransferRequest id resource) :
    ∃ info, s.resourcesList.find resource = some info ∧ address = info.address ∧
      text = transferRequest resource id := by
  unfold onTransferRequest at sent
  split at sent
  · cases sent
  · split at sent
    · next info _ found =>
      obtain ⟨there, request⟩ := Prod.mk.inj (List.mem_singleton.mp sent)
      exact ⟨info, found, there, request⟩
    · cases sent

theorem Consistent.truthful (consistent : Consistent s) : Truthful s where
  reported id resource address text sent := by
    rcases query_cases sent with ⟨-, absent⟩ | ⟨info, found, reply⟩
    · exact .inl absent
    · exact .inr ⟨info, found, reply, Option.isSome_of_eq_some (consistent.owners resource info found)⟩
  forwarded id resource address text sent := by
    obtain ⟨info, found, there, request⟩ := transfer_cases sent
    exact ⟨info, ⟨info.address⟩, found, consistent.owners resource info found, there, request⟩
  committed resource client member id address text sent := by
    obtain ⟨info, found, rfl⟩ := consistent.answered resource client member
    rcases query_cases sent with ⟨absent, -⟩ | ⟨other, same, reply⟩
    · cases absent.symm.trans found
    · obtain rfl := Option.some.inj (same.symm.trans found)
      exact ⟨other.desc, reply⟩

/-! ### What a request does to the two maps -/

theorem cid_ne_nil (address : SockAddr) : (cid address).isEmpty = false := by
  rw [List.isEmpty_eq_false_iff, cid]
  exact List.append_ne_nil_of_left_ne_nil (List.append_ne_nil_of_right_ne_nil _ (List.cons_ne_nil _ _)) _

theorem Consistent.onPingRequest (consistent : Consistent s) (id : Id) (clientInfo : ClientInfo) :
    Consistent (s.onPingRequest id clientInfo).1 := by
  unfold Tulip2pServer.onPingRequest
  split
  · exact consistent
  · split
    · next absent =>
      refine ⟨fun resource info found => ?_, consistent.answered⟩
      have owner := consistent.owners resource info found
      have other : info.ID ≠ id := by
        rintro rfl
        cases absent.symm.trans owner
      rw [OrderedMap.find_set, if_neg other, owner]
    · exact consistent

/-- A commit of a registered client that finds the resource in the list. -/
theorem consistent_answered {info : ResourceInfo} (consistent : Consistent s)
    (found : s.resourcesList.find resource = some info) :
    Consistent { s with answered := (resource, id) :: s.answered } ↔ info.ID = id := by
  constructor
  · intro after
    obtain ⟨other, same, owner⟩ := after.answered resource id List.mem_cons_self
    obtain rfl := Option.some.inj (found.symm.trans same)
    exact owner
  · rintro rfl
    refine ⟨consistent.owners, fun key client member => ?_⟩
    rcases List.mem_cons.mp member with new | before
    · obtain ⟨rfl, rfl⟩ := Prod.mk.inj new
      exact ⟨info, found, rfl⟩
    · exact consistent.answered key client before

theorem Consistent.committed (consistent : Consistent s) {client : ClientInfo} {desc : List UInt8}
    (registered : s.clientsPool.find id = some client) (absent : s.resourcesList.find resource = none) :
    Consistent { s with
      resourcesList := s.resourcesList.set resource ⟨client.address, id, desc⟩
      answered := (resource, id) :: s.answered } := by
  constructor
  · intro key info found
    rw [OrderedMap.find_set] at found
    split at found
    · obtain rfl := Option.some.inj found
      exact registered
    · exact consistent.owners key info found
  · intro key owner member
    rw [OrderedMap.find_set]
    rcases List.mem_cons.mp member with new | before
    · obtain ⟨rfl, rfl⟩ := Prod.mk.inj new
      exact ⟨_, if_pos rfl, rfl⟩
    · obtain ⟨info, found, same⟩ := consistent.answered key owner before
      have other : key ≠ resource := by
        rintro rfl
        cases absent.symm.trans found
      exact ⟨info, (if_neg other).trans found, same⟩

theorem onCommitRequest_consistent (consistent : Consistent s) (named : id.isEmpty = false) (desc : List UInt8) :
    Consistent (s.onCommitRequest id resource desc).1 ↔ ((s.clientsPool.find id).isSome →
      ∀ info, s.resourcesList.find resource = some info → info.ID = id) := by
  unfold onCommitRequest
  rw [if_neg (ne_true_of_eq_false named)]
  cases registered : s.clientsPool.find id with
  | none => exact iff_of_true consistent fun absent => nomatch absent
  | some client =>
    cases found : s.resourcesList.find resource with
    | none => exact iff_of_true (consistent.committed registered found) fun _ _ listed => nomatch listed
    | some info =>
      refine (consistent_answered consistent found).trans ⟨?_, fun own => own rfl info rfl⟩
      rintro owner - other same
      obtain rfl := Option.some.inj same
      exact owner

theorem onQuitRequest_consistent (consistent : Consistent s) (named : id.isEmpty = false) :
    Consistent (s.onQuitRequest id) ↔ ∀ resource info, s.resourcesList.find resource = some info → info.ID ≠ id := by
  unfold onQuitRequest
  rw [if_neg (ne_true_of_eq_false named)]
  split
  · next absent =>
    refine iff_of_true consistent ?_
    rintro resource info found rfl
    cases absent.symm.trans (consistent.owners resource info found)
  · constructor
    · rintro after resource info found rfl
      have owner := after.owners resource info found
      rw [OrderedMap.find_erase, if_pos rfl] at owner
      cases owner
    · intro none
      refine ⟨fun resource info found => ?_, fun resource client member => ?_⟩
      · rw [OrderedMap.find_erase, if_neg (none resource info found)]
        exact consistent.owners resource info found
      · exact consistent.answered resource client (List.mem_filter.mp member).1

theorem keeps_other {request : Request} (quit : request.header.method ≠ ascii "QUIT")
    (commit : request.header.method ≠ ascii "COMMIT") : s.Keeps request :=
  ⟨fun same => absurd same quit, fun same => absurd same commit⟩

theorem step_consistent {request : Request} (consistent : Consistent s) (next : s.step request = some s') :
    Consistent s' ↔ s.Keeps request := by
  obtain rfl := Option.some.inj next
  have named : request.id.isEmpty = false := cid_ne_nil request.address
  unfold handleClientRequest
  split
  · next ping =>
    exact iff_of_true (consistent.onPingRequest _ _)
      (keeps_other (by rw [ping]; decide) (by rw [ping]; decide))
  · split
    · next query =>
      exact iff_of_true consistent (keeps_other (by rw [query]; decide) (by rw [query]; decide))
    · split
      · next commit =>
        have stays : request.header.method ≠ ascii "QUIT" := by
          rw [commit]
          decide
        rw [onCommitRequest_consistent consistent named]
        exact ⟨fun own => ⟨fun quit => absurd quit stays, fun _ => own⟩, fun keeps => keeps.2 commit⟩
      · next commit =>
        split
        · next transfer =>
          exact iff_of_true consistent (keeps_other (by rw [transfer]; decide) commit)
        · split
          · next quit =>
            rw [onQuitRequest_consistent consistent named]
            exact ⟨fun own => ⟨fun _ => own, fun same => absurd same commit⟩, fun keeps => keeps.1 quit⟩
          · next quit => exact iff_of_true consistent (keeps_other quit commit)

theorem start_consistent : Consistent start where
  owners _ _ found := nomatch found
  answered _ _ member := absurd member List.not_mem_nil

/-- Where nobody leaves a resource behind and nobody commits another's, the replies are true. The first who does
ends the agreement of the two maps. -/
theorem resources_owned (run : Transition.Reach step Keeps start s) :
    Truthful s ∧ Consistent s ∧ ∀ request s', s.step request = some s' → (Consistent s' ↔ s.Keeps request) := by
  have consistent := run.invariant start_consistent fun _ _ _ before keeps next =>
    (step_consistent before next).mpr keeps
  exact ⟨consistent.truthful, consistent, fun request s' => step_consistent consistent⟩

def sampleRequest (method serverPath : String) (host : UInt8) : Request :=
  ⟨⟨#v[10, 0, 0, host], 1234⟩, ⟨ascii method, ascii serverPath⟩⟩

def samplePing : Tulip2pServer := (start.handleClientRequest (sampleRequest "PING" " /" 1)).1

theorem resources_owned_sample : Truthful samplePing ∧ Consistent samplePing ∧
    ∀ request s', samplePing.step request = some s' → (Consistent s' ↔ samplePing.Keeps request) :=
  resources_owned (.tail (e := sampleRequest "PING" " /" 1) .refl
    (keeps_other (by decide) (by decide)) rfl)

/-- One client commits and leaves, and another comes. -/
theorem leaver_reported : ∃ s info, Transition.exec step start
      [sampleRequest "PING" " /" 1, sampleRequest "COMMIT" " /a" 1, sampleRequest "QUIT" " /" 1,
        sampleRequest "PING" " /" 2] = some s ∧
    s.resourcesList.find (ascii "a") = some info ∧ s.clientsPool.find info.ID = none ∧
    ((sampleRequest "PING" " /" 2).address, queryReply info.ID info.desc) ∈
      s.onQueryRequest (sampleRequest "PING" " /" 2).id (ascii "a") :=
  ⟨_, ⟨(sampleRequest "PING" " /" 1).address, (sampleRequest "PING" " /" 1).id, noDescription⟩, rfl,
    by decide, by decide, by decide⟩

/-- Two clients commit the same resource. -/
theorem second_committer_unnamed : ∃ s, Transition.exec step start
      [sampleRequest "PING" " /" 1, sampleRequest "PING" " /" 2, sampleRequest "COMMIT" " /a" 1,
        sampleRequest "COMMIT" " /a" 2] = some s ∧
    (ascii "a", (sampleRequest "PING" " /" 2).id) ∈ s.answered ∧
    ((sampleRequest "PING" " /" 2).address, queryReply (sampleRequest "PING" " /" 1).id noDescription) ∈
      s.onQueryRequest (sampleRequest "PING" " /" 2).id (ascii "a") :=
  ⟨_, rfl, by decide, by decide⟩

theorem queryReply_inj {id other : Id} {desc text : List UInt8} (length : id.length = other.length)
    (same : queryReply id desc = queryReply other text) : id = other := by
  unfold queryReply at same
  rw [List.append_assoc, List.append_assoc, List.append_assoc, List.append_assoc, List.append_assoc,
    List.append_assoc] at same
  exact (List.append_inj (List.append_cancel_left same) length).1

theorem replies_untrue :
    (¬ ∀ s, Transition.Reach step (fun _ _ => True) start s → ∀ id resource address text,
      (address, text) ∈ s.onQueryRequest id resource → text = notFoundReply ∨
        ∃ info, s.resourcesList.find resource = some info ∧ text = queryReply info.ID info.desc ∧
          (s.clientsPool.find info.ID).isSome) ∧
    ¬ ∀ s, Transition.Reach step (fun _ _ => True) start s → ∀ resource client, (resource, client) ∈ s.answered →
      ∀ id address text, (address, text) ∈ s.onQueryRequest id resource → ∃ desc, text = queryReply client desc := by
  constructor
  · intro reported
    obtain ⟨s, info, ran, found, left, sent⟩ := leaver_reported
    have reached : Transition.Reach step (fun _ _ => True) start s :=
      Transition.reach_of_exec .refl (fun _ _ _ => trivial) ran
    rcases reported s reached _ _ _ _ sent with absent | ⟨other, same, -, registered⟩
    · have status := congrArg (fun text => text[18]?) absent
      exact absurd status (by simp [queryReply, notFoundReply, ascii])
    · obtain rfl := Option.some.inj (found.symm.trans same)
      rw [left] at registered
      cases registered
  · intro committed
    obtain ⟨s, ran, answered, sent⟩ := second_committer_unnamed
    have reached : Transition.Reach step (fun _ _ => True) start s :=
      Transition.reach_of_exec .refl (fun _ _ _ => trivial) ran
    obtain ⟨desc, reply⟩ := committed s reached _ _ answered _ _ _ sent
    exact absurd (queryReply_inj (by decide) reply) (by decide)

end Tulip2pServer

end LiveStreaming.Tulip2p
