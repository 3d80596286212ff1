/-!
# Hubs

Messages go out to every connected client.  Each client has a channel of limited size; a client whose
channel is full when a message goes out is dropped.
-/

namespace TagLoom

/-- Messages on their way to one receiver.  Sending on a closed channel and closing one twice are
mistakes, which a channel remembers. -/
structure Channel (μ : Type) where
  capacity : Nat
  queue : List μ
  closed : Bool
  misused : Bool

namespace Channel

variable {μ : Type}

def new (capacity : Nat) : Channel μ := ⟨capacity, [], false, false⟩

def hasRoom (c : Channel μ) : Bool := c.queue.length < c.capacity

def send (c : Channel μ) (m : μ) : Channel μ :=
  if c.closed then { c with misused := true } else { c with queue := c.queue ++ [m] }

def close (c : Channel μ) : Channel μ :=
  if c.closed then { c with misused := true } else { c with closed := true }

def drain (c : Channel μ) : Channel μ × List μ := ({ c with queue := [] }, c.queue)

end Channel

/-- The clients that are connected, and the channels of all clients there have been. -/
structure Hub (μ : Type) where
  connected : List Nat
  channels : List (Nat × Channel μ)

namespace Hub

variable {μ : Type}

def empty : Hub μ := ⟨[], []⟩

def channel? (h : Hub μ) (id : Nat) : Option (Channel μ) := (h.channels.find? (·.1 == id)).map (·.2)

def update (h : Hub μ) (id : Nat) (f : Channel μ → Channel μ) : Hub μ :=
  { h with channels := h.channels.map fun (i, c) => if i == id then (i, f c) else (i, c) }

def add (h : Hub μ) (id capacity : Nat) : Hub μ :=
  ⟨h.connected ++ [id], h.channels ++ [(id, .new capacity)]⟩

/-- Disconnects a client and closes its channel; one that is not connected stays as it is. -/
def remove (h : Hub μ) (id : Nat) : Hub μ :=
  if h.connected.contains id then
    { h.update id Channel.close with connected := h.connected.filter (· != id) }
  else h

def removeAll (h : Hub μ) (ids : List Nat) : Hub μ := ids.foldl remove h

def closeAll (h : Hub μ) : Hub μ := h.removeAll h.connected

def isFull (h : Hub μ) (id : Nat) : Bool := !((h.channel? id).map Channel.hasRoom).getD false

/-- Sends a message to every connected client that can take it. -/
def offer (h : Hub μ) (m : μ) : Hub μ :=
  h.connected.foldl (fun h id => if h.isFull id then h else h.update id (Channel.send · m)) h

def slow (h : Hub μ) : List Nat := h.connected.filter h.isFull

/-- Sends a message to everyone and drops the clients that could not take it. -/
def broadcast (h : Hub μ) (m : μ) : Hub μ := (h.offer m).removeAll h.slow

def drain (h : Hub μ) (id : Nat) : Hub μ × List μ :=
  (h.update id fun c => c.drain.1, ((h.channel? id).map fun c => c.drain.2).getD [])

def size (h : Hub μ) : Nat := h.connected.length

end Hub

end TagLoom
