import LiveServer.World

/-! The endpoints agents poll and report to. -/
namespace LiveServer

/-- Marks fetched tasks as running, one statement a task; errors are dropped. -/
def AgentHandler.claimTasks (agentID : Str) : List AgentTask → Server Unit
  | [] => return
  | t :: rest => do
    let _ ← if agentID ≠ [] then db.assignTask t.id agentID
      else db.updateTaskStatus t.id taskStatusRunning []
    AgentHandler.claimTasks agentID rest

namespace AgentHandler

/-- Pending tasks for the agent; `none` is the answer 500 *failed to fetch tasks*. -/
def getTasks (agentID : Str) : Server (Option (List AgentTask)) := do
  match ← db.getPendingTasks agentID with
  | .error _ => return none
  | .ok tasks =>
    claimTasks agentID tasks
    return some tasks

/-- A task's result, reported by an agent with a status that is not empty; `false`
is the answer 500 *failed to update task*. -/
def updateTask (taskID status errorMsg : Str) : Server Bool := do
  match ← db.updateTaskStatus taskID status errorMsg with
  | some _ => return false
  | none =>
    if status = taskStatusFailed then
      match ← db.getTaskByID taskID with
      | .error _ => pure ()
      | .ok task => metrics.inc .ffmpegRestartTotal task.streamID
    return true

end AgentHandler
end LiveServer
