import SocksProxy.SessionTask

/-!
# A session under test

A session of one client in a scripted network. After each step of the test the
session goes on until it is done or waits, and what has happened is reported.
-/

namespace SocksProxy

structure SessionRun where
  network : Network
  task : SessionTask

namespace SessionRun

def start (config : Configuration) (script : Script) (peer self : Reported) : SessionRun :=
  let (index, network) := (Network.start script).addSocket .client peer self
  ⟨network, .start config index⟩

/-- Takes a step. The result of the session is given when it becomes done. -/
def step (run : SessionRun) (step : Network.Step) :
    Network.News × Option (Except Error Unit) × SessionRun :=
  let (task, network) := run.task.run (step.apply run.network)
  let (news, network) := network.report
  (news, if run.task.result?.isSome then none else task.result?, ⟨network, task⟩)

end SessionRun

end SocksProxy
