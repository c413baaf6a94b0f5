import GraphShell.Remote.Wire
import GraphShell.Url.Basic

/-! A store on the network: each request is one message, and the status and the body of the response
make the answer. The path of a message names the kind of entity and, where something is read, the
keys of the entity; what is written goes into the body. Only an address whose path has segments
will do for a store, because the paths of requests are made by adding to them.
-/

namespace GraphShell

-----------------------------------------------------------------------------------------
-- Addresses
-----------------------------------------------------------------------------------------

/-- Why no store can be reached at an address. -/
inductive EndpointError
  | unreadable (url : String) (cause : UrlError)
  | notHierarchical (url : String)
deriving DecidableEq, Repr

/-- The text of a cause. -/
def EndpointError.message : EndpointError → String
  | unreadable url cause => "invalid store endpoint `" ++ url ++ "`: " ++ cause.message
  | notHierarchical url =>
      "invalid store endpoint `" ++ url ++ "`: not a hierarchical URL"

/-- The address of a store. -/
def Url.endpoint (text : String) : Except EndpointError Url :=
  match Url.read text with
  | .error cause => .error (.unreadable text cause)
  | .ok url => if url.isHierarchical then .ok url else .error (.notHierarchical text)

-----------------------------------------------------------------------------------------
-- Messages
-----------------------------------------------------------------------------------------

/-- What a message does at its address. -/
inductive Method
  | get
  | put
  | post
deriving DecidableEq, Repr

/-- A message: what it does, where, and its JSON body if it has one. -/
structure Message where
  method : Method
  url : Url
  body : Option String
deriving DecidableEq, Repr

/-- What arrived of the body of a response. -/
inductive Delivery
  | whole (text : String)
  | late
  | broken
deriving DecidableEq, Repr

/-- What came of a message. -/
inductive Exchange
  | response (status : Nat) (body : Delivery)
  | late
  | failed (detail : String)
deriving DecidableEq, Repr

/-- What carries messages; its states are `τ`. -/
structure Transport (τ : Type) where
  send (message : Message) (state : τ) : Exchange × τ

/-- The transport that never gets a message through, and why. -/
def Transport.unreachable (detail : String) : Transport Unit where
  send _ state := (.failed detail, state)

/-- The message for a request to the store at an address. -/
def Request.message (base : Url) : Request → Message
  | getVertex key => ⟨.get, base.append ["vertex", key], none⟩
  | putVertex key value ttl =>
      ⟨.put, base.append ["vertex"], some (Wire.VertexWrite.json ⟨key, value, ttl.seconds⟩)⟩
  | getEdge tail head => ⟨.get, base.append ["edge", tail, head], none⟩
  | addEdge tail head weight ttl =>
      ⟨.post, base.append ["edge"], some (Wire.EdgeWrite.json ⟨tail, head, weight, ttl.seconds⟩)⟩
  | illuminate seed step k tfidf =>
      ⟨.post, base.append ["illuminate"], some (Wire.Neighbourhood.json ⟨seed, step, k, tfidf⟩)⟩

end GraphShell

namespace GraphShell.Remote

-----------------------------------------------------------------------------------------
-- Answers
-----------------------------------------------------------------------------------------

/-- The failure of a body that is not what was asked for, or did not arrive whole. -/
def malformed : StoreError :=
  .decode "error decoding response body"

/-- The answer in the body of a response. -/
def readBody {α : Type} (read : String → Except Json.Fault α) : Delivery → Except StoreError α
  | .whole text => (read text).mapError fun _ => malformed
  | .late => .error .timeout
  | .broken => .error malformed

/-- The answer in the body of a response that accepts a request; what only writes does not
look at it.
-/
def accepted : (request : Request) → Delivery → Except StoreError request.Reply
  | .getVertex _, body => readBody Vertex.ofJson body
  | .putVertex .., _ => .ok ()
  | .getEdge .., body => (readBody Wire.EdgeWeight.ofJson body).map Wire.EdgeWeight.weight
  | .addEdge .., _ => .ok ()
  | .illuminate .., body => readBody Graph.ofJson body

/-- The text of a body, as far as a refusal shows it. -/
def refusalText : Delivery → String
  | .whole text => text
  | .late | .broken => ""

/-- The answer to a request that an exchange makes. -/
def answer (request : Request) : Exchange → Except StoreError request.Reply
  | .late => .error .timeout
  | .failed detail => .error (.transport detail)
  | .response status body =>
      if status = 404 then .error (.notFound request.subject)
      else if 200 ≤ status ∧ status < 300 then accepted request body
      else .error (.rejected status (refusalText body))

/-- The store at an address. -/
def store {τ : Type} (base : Url) (transport : Transport τ) : Store τ where
  answer request state :=
    let (exchange, state) := transport.send (request.message base) state
    (answer request exchange, state)

end GraphShell.Remote
