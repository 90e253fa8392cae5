import OracleServer.Handler
import OracleServer.Lib.Machine

/-! The whole server as one machine: frames reach the pricing client, the reload loop
polls and carries its decisions out write by write, and any number of requests run
beside it. -/
namespace OracleServer

open Interaction

abbrev RequestTask :=
  Task Server Op Op.Answer (Except AppError BuiltSlot) (Except AppError ContextResponse)

structure InFlight where
  endpoint : Endpoint
  query : Option String
  body : ByteArray
  task : RequestTask

/-- `reloading` are the writes of a decision that are still to come. -/
structure World where
  server : Server
  reloading : List ReloadStep
  requests : List InFlight

/-- A frame, one turn of the reload loop (`poll`) or the next write of its decision
(`reload`), a request that arrives, or a move of one in flight. A body over axum's limit of
2 MiB is refused before there is a handler, so no request arrives with one. -/
inductive Event
  | frame (f : ServerFrame)
  | poll (read : Option (Int64 × ByteArray))
  | reload
  | arrive (endpoint : Endpoint) (query : Option String) (body : ByteArray)
  | move (r : ℕ) (m : Move) (i : Input)

def Server.observe (s : Server) (e : ClientEvent) : Server :=
  { s with toRunning := s.toRunning.observe e }

def Server.reload (s : Server) (st : ReloadStep) : Server :=
  { s with toRunning := st.perform s.toRunning }

/-- What a write adds to the journal of the pricing client. -/
def ReloadStep.logged : ReloadStep → List ClientEvent
  | .sendReplace symbols => [.publish symbols]
  | .forget symbols => [.forget symbols]
  | _ => []

theorem Server.reload_journal (s : Server) (st : ReloadStep) :
    (s.reload st).journal = s.journal ++ st.logged := by
  cases st with
  | sendReplace symbols => rfl
  | forget symbols => rfl
  | _ => exact (List.append_nil _).symm

lemma Server.journal_refl (s : Server) : s.journal <+: s.journal := List.prefix_rfl

lemma Server.journal_trans {s t u : Server} (h : s.journal <+: t.journal)
    (h' : t.journal <+: u.journal) : s.journal <+: u.journal := h.trans h'

/-- A request's move leaves the running set and the pricing client alone. -/
theorem move_running {D : Deployment} {t t' : RequestTask} {i : Input} {m : Move} {s s' : Server}
    (h : t.step (Server.perform D) i m s = some (t', s')) : s'.toRunning = s.toRunning := by
  rcases t.step_trace h with ⟨-, rfl⟩ | ⟨o, answer, hp, -⟩
  · rfl
  · rcases Server.perform_cases hp with rfl | ⟨m, rfl⟩ | ⟨key, stored, -, -, rfl⟩
    · rfl
    · rfl
    · rfl

/-- A request that has answered. -/
def InFlight.result (q : InFlight) : Option (Except AppError ContextResponse) :=
  match q.task.config with
  | .run (.ret r) => some r
  | _ => none

namespace World

/-- A server that has just started: nothing cached, the list published once. -/
def boot (set : TokenSet) : World :=
  ⟨⟨⟨set, ⟨.empty, set.symbols⟩, [], none⟩, ∅, []⟩, [], []⟩

variable [Toml] [Alloy] [Unicode] [RainFloat] [Abi]

def step (D : Deployment) (w : World) : Event → Option World
  | .frame f => some { w with server := w.server.observe (.frame f) }
  | .poll read =>
    let decided :=
      Reload.poll D.staticConfig D.bootConfig w.server.tokens w.server.rejected read
    if w.reloading.isEmpty then some { w with reloading := decided } else none
  | .reload =>
    match w.reloading with
    | [] => none
    | st :: rest => some { w with server := w.server.reload st, reloading := rest }
  | .arrive endpoint query body =>
    let task : RequestTask := ⟨.run (handler D endpoint query body), []⟩
    some { w with requests := w.requests ++ [⟨endpoint, query, body, task⟩] }
  | .move r m i =>
    match w.requests[r]? with
    | none => none
    | some q =>
      (q.task.step (Server.perform D) i m w.server).map fun t =>
        { w with server := t.2, requests := w.requests.set r { q with task := t.1 } }

/-- What one event does. -/
inductive Took (D : Deployment) (w : World) : Event → World → Prop
  | frame (f : ServerFrame) : Took D w (.frame f) { w with server := w.server.observe (.frame f) }
  | poll (read : Option (Int64 × ByteArray)) (hidle : w.reloading = []) :
    Took D w (.poll read) ⟨w.server,
      Reload.poll D.staticConfig D.bootConfig w.server.tokens w.server.rejected read, w.requests⟩
  | reload {st : ReloadStep} {rest : List ReloadStep} (hpending : w.reloading = st :: rest) :
    Took D w .reload { w with server := w.server.reload st, reloading := rest }
  | arrive (endpoint : Endpoint) (query : Option String) (body : ByteArray) :
    Took D w (.arrive endpoint query body) ⟨w.server, w.reloading,
      w.requests ++ [⟨endpoint, query, body, ⟨.run (handler D endpoint query body), []⟩⟩]⟩
  | move {r : ℕ} {m : Move} {i : Input} {q : InFlight} {t : RequestTask} {s : Server}
    (hq : w.requests[r]? = some q) (hstep : q.task.step (Server.perform D) i m w.server = some (t, s)) :
    Took D w (.move r m i)
      { w with server := s, requests := w.requests.set r { q with task := t } }

theorem took_of_step {D : Deployment} {w w' : World} {e : Event} (h : step D w e = some w') :
    Took D w e w' := by
  cases e with
  | frame f =>
    obtain rfl := Option.some.inj h
    exact .frame f
  | poll read =>
    simp only [step] at h
    split at h
    · next hidle =>
      obtain rfl := Option.some.inj h
      exact .poll read (List.isEmpty_iff.mp hidle)
    · cases h
  | reload =>
    simp only [step] at h
    split at h
    · cases h
    · next st rest hpending =>
      obtain rfl := Option.some.inj h
      exact .reload hpending
  | arrive endpoint query body =>
    obtain rfl := Option.some.inj h
    exact .arrive endpoint query body
  | move r m i =>
    simp only [step] at h
    split at h
    · cases h
    · next q hq =>
      obtain ⟨⟨t, s⟩, hstep, rfl⟩ := Option.map_eq_some_iff.mp h
      exact .move hq hstep

def run (D : Deployment) (w : World) (es : List Event) : Option World := Machine.run (step D) w es

end World

end OracleServer
