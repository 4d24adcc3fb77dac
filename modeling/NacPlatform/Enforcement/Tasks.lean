import NacPlatform.Framework.Pool
import NacPlatform.Framework.Run
import NacPlatform.Enforcement.Loops

namespace NacPlatform.Enforcement

/-- The tasks of the service that share its state. -/
inductive Task where
  | consumer
  | reinforce
  | repoison
  deriving DecidableEq, Repr

abbrev Service := Pool Task Host EnfOp EnfOp.Reply EnforceError

/-- What happens next: a command arrives at a consumer that waits for one, a timer fires, or a
task performs its next operation. -/
inductive TaskStep where
  | receive (cmd : EnforcementCommand)
  | reinforceTick
  | repoisonTick
  | advance (task : Task) (env : Env)

def Service.initial (spoofer : Option MacAddr) : Service := ⟨.empty spoofer,fun _ => pure ()⟩

/-- One step of an interleaving. The lock of the spoofer is left out: it only rules out steps. -/
def taskStep (rt : Runtime) (ipt : Backend) (s : Service) : TaskStep → Service
  | .receive cmd => s.start .consumer (consume rt ipt cmd)
  | .reinforceTick => s.start .reinforce (reinforcePass rt ipt)
  | .repoisonTick => s.start .repoison repoisonPass
  | .advance task env => s.advance (exec env) task

/-- A state of the service after some interleaving on the nft backend. -/
def Reachable (rt : Runtime) (s : Service) : Prop :=
  ∃ spoofer steps, s=runs (taskStep rt .nft) (.initial spoofer) steps

end NacPlatform.Enforcement
