import ConversationFlow.Checkout.Basic
import ConversationFlow.Command.Execution
import ConversationFlow.Run.Dialogue

/-!
# The world of a run

A world has files and whatever else the parties of a run change. The agent and the
host are arbitrary functions on it: nothing is assumed about which of their calls
succeed. So are the shell that executes commands on the files, and the finding of checkouts.
-/

namespace ConversationFlow

structure World (α : Type) where
  files : FileSystem
  rest : α

/-- A call to a party: its answer or error, and the world after it. -/
abbrev Call (α ε β : Type) := World α → Except ε β × World α

/-- The calls that an agent takes. -/
structure Agent (α : Type) where
  start : Call α AgentError Unit
  stop : Call α AgentError Unit
  create : SessionOptions → Call α AgentError Text
  send : (session prompt : Text) → (isStreaming : Bool) → Call α AgentError Response
  stats : (session : Text) → Call α AgentError SessionStats
  compact : (session : Text) → Call α AgentError Unit
  destroy : (session : Text) → Call α AgentError Unit
  close : (session : Text) → Call α AgentError Unit

/-- A host answers a request for a working directory. -/
abbrev Host (α : Type) := HostRequest → Path → Call α CommandError CheckOutcome

/-- The host without any tools. -/
def Host.bare {α : Type} : Host α := fun request _ w => (.ok request.skipped, w)

/-- The parties that a run turns to. `clock` is the time since some moment. The shell and the
checkouts are those of the system that is modelled, unless others are given. -/
structure Surroundings (α : Type) where
  agent : Agent α
  host : Host α
  stamp : World α → Stamp × World α
  now : Variables.Moment
  clock : World α → Duration
  execute : CommandRunner → Text → FileSystem →
    Except CommandError CommandOutput × FileSystem := CommandRunner.run
  checkout : FileSystem → Path → Checkout := Checkout.find

namespace Surroundings

variable {α : Type}

/-- The world with other files, if there are any. -/
private def withFiles {ε β : Type} (w : World α) :
    Except ε (FileSystem × β) → Except ε β × World α
  | .ok (files, b) => (.ok b, { w with files })
  | .error e => (.error e, w)

/-- How the parties answer. -/
def answer (s : Surroundings α) : Dialogue.Answering (World α)
  | .start, w => s.agent.start w
  | .stop, w => s.agent.stop w
  | .create options, w => s.agent.create options w
  | .send session prompt isStreaming, w => s.agent.send session prompt isStreaming w
  | .stats session, w => s.agent.stats session w
  | .compact session, w => s.agent.compact session w
  | .destroy session, w => s.agent.destroy session w
  | .close session, w => s.agent.close session w
  | .host request cwd, w => s.host request cwd w
  | .command runner line, w =>
    let (result, files) := s.execute runner line w.files
    (result, { w with files })
  | .files, w => (w.files, w)
  | .save checkpoint dir, w => withFiles w (checkpoint.write w.files dir)
  | .write path content, w =>
    let (result, files) := w.files.writeNested path content
    (result, { w with files })
  | .stamp, w => s.stamp w
  | .now, w => (⟨s.now, s.checkout⟩, w)
  | .clock, w => (s.clock w, w)
  | .note _, w => ((), w)

end Surroundings

end ConversationFlow
