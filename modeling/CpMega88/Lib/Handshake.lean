/-!
# The four-phase handshake

Two parties share a request line and an acknowledgement line. The asker
makes the request active, waits for the acknowledgement, takes the request
back and waits until the acknowledgement is gone too; the server watches
for the request, serves it, holds the acknowledgement until the request is
gone, and releases it. Each counts the rounds it has completed.

`InStep` says in which stages the two can be at once, and how their counts
compare. Every step keeps it (`InStep.step`), and in step the two never
wait for each other (`InStep.not_both_wait`). An asker may also give up,
as long as the server has not noticed the request.
-/

namespace Handshake

inductive Asker where
  | rest
  | ask
  | seen
  | withdraw
deriving DecidableEq

inductive Server where
  | watch
  | serve
  | hold
  | release
deriving DecidableEq

/-- Whether the request line is active. -/
def Asker.request : Asker → Bool
  | .ask | .seen => true
  | .rest | .withdraw => false

/-- Whether the acknowledgement line is active. -/
def Server.acknowledge : Server → Bool
  | .hold | .release => true
  | .watch | .serve => false

structure State where
  asker : Asker
  asked : Nat
  server : Server
  served : Nat

/-- A step of one of the parties, which may leave the handshake as it is. -/
inductive Step : State → State → Prop
  | stay {s : State} : Step s s
  | ask {s : State} (h : s.asker = .rest) : Step s { s with asker := .ask }
  | see {s : State} (h : s.asker = .ask) (hack : s.server.acknowledge = true) :
      Step s { s with asker := .seen }
  | withdraw {s : State} (h : s.asker = .seen) : Step s { s with asker := .withdraw }
  | settle {s : State} (h : s.asker = .withdraw) (hack : s.server.acknowledge = false) :
      Step s { s with asker := .rest, asked := s.asked + 1 }
  | giveUp {s : State} (h : s.asker = .ask) (hserver : s.server = .watch) :
      Step s { s with asker := .rest }
  | notice {s : State} (h : s.server = .watch) (hrequest : s.asker.request = true) :
      Step s { s with server := .serve }
  | hold {s : State} (h : s.server = .serve) : Step s { s with server := .hold }
  | release {s : State} (h : s.server = .hold) (hrequest : s.asker.request = false) :
      Step s { s with server := .release }
  | done {s : State} (h : s.server = .release) :
      Step s { s with server := .watch, served := s.served + 1 }

/-- The stages the parties can be in together, and their rounds. -/
def InStep (s : State) : Prop :=
  match s.asker, s.server with
  | .rest, .watch | .ask, .watch | .ask, .serve | .ask, .hold | .seen, .hold
  | .withdraw, .hold | .withdraw, .release => s.served = s.asked
  | .withdraw, .watch => s.served = s.asked + 1
  | _, _ => False

theorem InStep.step {s t : State} (h : InStep s) (hstep : Step s t) : InStep t := by
  obtain ⟨asker, asked, server, served⟩ := s
  cases hstep with
  | stay => exact h
  | ask ha =>
      cases ha
      cases server <;> first | exact h | exact h.elim
  | see ha hack =>
      cases ha
      cases server <;> first | exact h | exact h.elim | cases hack
  | withdraw ha =>
      cases ha
      cases server <;> first | exact h | exact h.elim
  | settle ha hack =>
      cases ha
      cases server <;> first | exact h | exact h.elim | cases hack
  | giveUp ha hs =>
      cases ha
      cases hs
      exact h
  | notice hs hrequest =>
      cases hs
      cases asker <;> first | exact h | exact h.elim | cases hrequest
  | hold hs =>
      cases hs
      cases asker <;> first | exact h | exact h.elim
  | release hs hrequest =>
      cases hs
      cases asker <;> first | exact h | exact h.elim | cases hrequest
  | done hs =>
      cases hs
      cases asker <;> first | exact congrArg (· + 1) h | exact h.elim

/-- The asker waits for the other line to change. -/
def Asker.waits (a : Asker) (acknowledge : Bool) : Prop :=
  a = .ask ∧ acknowledge = false ∨ a = .withdraw ∧ acknowledge = true

/-- The server waits for the other line to change. -/
def Server.waits (r : Server) (request : Bool) : Prop :=
  r = .watch ∧ request = false ∨ r = .hold ∧ request = true

theorem InStep.not_both_wait {s : State} (h : InStep s) :
    ¬ (s.asker.waits s.server.acknowledge ∧ s.server.waits s.asker.request) := by
  obtain ⟨asker, asked, server, served⟩ := s
  rintro ⟨⟨rfl, hack⟩ | ⟨rfl, hack⟩, ⟨rfl, hrequest⟩ | ⟨rfl, hrequest⟩⟩
  · cases hrequest
  · cases hack
  · cases hack
  · cases hrequest

/-- The server is watching while the asker rests, and both have completed
the same rounds. -/
theorem InStep.rest {s : State} (h : InStep s) (ha : s.asker = .rest) :
    s.server = .watch ∧ s.served = s.asked := by
  obtain ⟨asker, asked, server, served⟩ := s
  cases ha
  cases server <;> first | exact ⟨rfl, h⟩ | exact h.elim

/-- While it serves, the asker is asking, in the same round. -/
theorem InStep.serve {s : State} (h : InStep s) (hs : s.server = .serve) :
    s.asker = .ask ∧ s.served = s.asked := by
  obtain ⟨asker, asked, server, served⟩ := s
  cases hs
  cases asker <;> first | exact ⟨rfl, h⟩ | exact h.elim

/-- While it releases, the asker is waiting for that. -/
theorem InStep.release {s : State} (h : InStep s) (hs : s.server = .release) :
    s.asker = .withdraw ∧ s.served = s.asked := by
  obtain ⟨asker, asked, server, served⟩ := s
  cases hs
  cases asker <;> first | exact ⟨rfl, h⟩ | exact h.elim

/-- An acknowledgement seen is held. -/
theorem InStep.seen {s : State} (h : InStep s) (ha : s.asker = .seen) :
    s.server = .hold ∧ s.served = s.asked := by
  obtain ⟨asker, asked, server, served⟩ := s
  cases ha
  cases server <;> first | exact ⟨rfl, h⟩ | exact h.elim

/-- An acknowledgement of a request is held. -/
theorem InStep.acknowledged {s : State} (h : InStep s) (ha : s.asker = .ask)
    (hack : s.server.acknowledge = true) : s.server = .hold ∧ s.served = s.asked := by
  obtain ⟨asker, asked, server, served⟩ := s
  cases ha
  cases server <;> first | exact ⟨rfl, h⟩ | exact h.elim | cases hack

/-- A request taken back is let go in this round, or has been. -/
theorem InStep.withdraw {s : State} (h : InStep s) (ha : s.asker = .withdraw) :
    (s.server = .hold ∨ s.server = .release) ∧ s.served = s.asked
      ∨ s.server = .watch ∧ s.served = s.asked + 1 := by
  obtain ⟨asker, asked, server, served⟩ := s
  cases ha
  cases server with
  | watch => exact .inr ⟨rfl, h⟩
  | serve => exact h.elim
  | hold => exact .inl ⟨.inl rfl, h⟩
  | release => exact .inl ⟨.inr rfl, h⟩

/-- A request that the server is about to notice is for the round in which
it is. -/
theorem InStep.watch {s : State} (h : InStep s) (hs : s.server = .watch)
    (hrequest : s.asker.request = true) : s.asker = .ask ∧ s.served = s.asked := by
  obtain ⟨asker, asked, server, served⟩ := s
  cases hs
  cases asker <;> first | exact ⟨rfl, h⟩ | exact h.elim | cases hrequest

/-- A server that is not watching is in the round of the asker. -/
theorem InStep.busy {s : State} (h : InStep s) (hs : s.server ≠ .watch) :
    s.asker ≠ .rest ∧ s.served = s.asked := by
  obtain ⟨asker, asked, server, served⟩ := s
  cases server
  · exact absurd rfl hs
  all_goals cases asker <;> first | exact ⟨nofun, h⟩ | exact h.elim

end Handshake
