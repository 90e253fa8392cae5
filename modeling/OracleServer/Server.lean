import OracleServer.Lib.Interaction
import OracleServer.ReloadRun
import OracleServer.Reuse

/-! The state that requests share and their accesses to it. Each operation is one read
or write under one lock (or of one atomic flag, clock or channel); a request is a program
of operations, so everything else may happen between any two of them. -/
namespace OracleServer

open Interaction

/-- What boot fixes: the config table on disk and the config boot built from it. -/
structure Deployment where
  staticConfig : Table
  bootConfig : Config

namespace Deployment

def chainId (D : Deployment) : UInt64 := D.bootConfig.chainId

def minRemainingSecs (D : Deployment) : UInt64 := D.bootConfig.signing.reuseMinRemainingSecs

/-- `ReuseCache::enabled`. -/
def reuseEnabled (D : Deployment) : Bool := D.minRemainingSecs > 0

end Deployment

structure Server extends Running where
  reuse : Map ReuseKey Stored
  metrics : List Metric

/-- The reads of the pricing cache, and of the token set, in one request. -/
inductive ReadPoint
  | request
  | admission
  | batchFinal
  deriving DecidableEq, Repr

/-- Which token a liveness check reads: the request's own snapshot, a stored response's,
or that of the quote cached at the batch-final snapshot. -/
inductive LiveCheck
  | own (phase : RefusalPhase)
  | stored
  | current
  deriving DecidableEq, Repr

/-- The points and phases only name the read; the answer does not depend on them. -/
inductive Op
  | isLive (check : LiveCheck) (generation : QuoteGeneration)
  | tokens (point : ReadPoint)
  | nowUnixMs (phase : RefusalPhase)
  | snapshotMany (point : ReadPoint) (symbols : List Symbol)
  | reuseGet (key : ReuseKey)
  | reuseInsert (key : ReuseKey) (stored : Stored)
  | signContext (context : List B256)
  | count (m : Metric)

def Op.Answer : Op → Type
  | .isLive _ _ => Bool
  | .tokens _ => TokenSet
  | .nowUnixMs _ => Int64
  | .snapshotMany _ _ => Map Symbol QuoteSnapshot
  | .reuseGet _ => Option Stored
  | .reuseInsert _ _ => Bool
  | .signContext _ => Except String (List UInt8 × Address)
  | .count _ => Unit

/-- What the outside world supplies to an operation that needs it: the clock, and the
outcome of a sign. -/
structure Input where
  nowUnixMs : Int64
  signed : Except String (List UInt8 × Address)

/-- A store happens only `while_live`, inside the generation's gate. -/
def Server.storeWhileLive (s : Server) (key : ReuseKey) (stored : Stored) : Bool × Server :=
  if s.pricing.cache.isLive stored.generation then
    (true, { s with reuse := s.reuse.insert key stored })
  else (false, s)

def Server.perform (D : Deployment) (i : Input) (o : Op) (s : Server) :
    Option (o.Answer × Server) :=
  match o with
  | .isLive _ g => some (s.pricing.cache.isLive g, s)
  | .tokens _ => some (s.tokens, s)
  | .nowUnixMs _ => some (i.nowUnixMs, s)
  | .snapshotMany _ symbols => some (s.pricing.cache.snapshotMany D.chainId symbols, s)
  | .reuseGet key => some (s.reuse.lookup key, s)
  | .reuseInsert key stored => some (s.storeWhileLive key stored)
  | .signContext _ => some (i.signed, s)
  | .count m => some ((), { s with metrics := s.metrics ++ [m] })

/-- The only writes of an operation are a counter and a store. -/
theorem Server.perform_cases {D : Deployment} {i : Input} {o : Op} {s s' : Server}
    {answer : o.Answer} (h : Server.perform D i o s = some (answer, s')) :
    s' = s ∨ (∃ m, s' = { s with metrics := s.metrics ++ [m] }) ∨
      ∃ key stored, o = .reuseInsert key stored ∧
        s.pricing.cache.isLive stored.generation = true ∧
        s' = { s with reuse := s.reuse.insert key stored } := by
  cases o with
  | reuseInsert key stored =>
    simp only [Server.perform, Server.storeWhileLive] at h
    split at h
    · next hlive =>
      have hs' := (Prod.mk.inj (Option.some.inj h)).2
      exact .inr (.inr ⟨key, stored, rfl, hlive, hs'.symm⟩)
    · exact .inl (Prod.mk.inj (Option.some.inj h)).2.symm
  | count m => exact .inr (.inl ⟨m, (Prod.mk.inj (Option.some.inj h)).2.symm⟩)
  | _ => exact .inl (Prod.mk.inj (Option.some.inj h)).2.symm

/-- A sequential part of a request that may fail with an error of its own. -/
abbrev Act (α : Type) := ExceptT AppError (Prog Op Op.Answer) α

def Act.ask (o : Op) : Act o.Answer := ExceptT.lift (Prog.ask o)

def Act.ofExcept {α : Type} (x : Except AppError α) : Act α := ExceptT.mk (.ret x)

def Act.count (m : Metric) : Act Unit := Act.ask (.count m)

end OracleServer
