import FlowArtifact.Declaration.Builder

/-!
# A sample artifact

A bridge that takes orders over HTTP and handles them one by one. It shows each kind of
declaration: a configuration with its connection, and a construct with a source, operations, a
scope, a router with routes, and an error handler.
-/

namespace FlowArtifact.Sample

def group (name : String) (parameters : List (String × Value)) : ParameterGroup :=
  parameters.foldl (fun g (name, value) => g.withParameter name value) (.new name)

def general (name : String) (value : Value) : ParameterGroup := group "General" [(name, value)]

def configuration : Configuration where
  attributes := .new "http" "listener-config"
  refName := some "listenerConfig"
  connection := some <|
    withGroup (group "Connection" [("host", .simple "0.0.0.0"), ("port", .simple "8081")])
      { attributes := .new "http" "listener-connection" }

def source : Component :=
  withGroup (general "path" (.simple "/orders"))
    ((Component.new .source "http" "listener").withConfig "listenerConfig")

def logger : Component := .new .operation "mule" "logger"

/-- Sends orders with a high priority to another flow. -/
def choice : Except Error Component := do
  let router := Component.new .router "mule" "choice"
  let router ← router.withRoute "when" fun route =>
    (withGroup (general "expression" (.simple "#[payload.priority == 'high']")) route).withComponent
      (.new .operation "mule" "flow-ref")
  router.withRoute "otherwise" pure

/-- Handles each order and writes a line about it. -/
def forEach : Except Error Component := do
  let scope := withGroup (general "collection" (.simple "#[payload.items]"))
    (Component.new .scope "mule" "foreach")
  let scope ← scope.withComponent (← choice)
  scope.withComponent (withGroup (general "message" (.cdata "Processed item #[payload.id]")) logger)

def errorHandler : Except Error Component :=
  (Component.new .scope "mule" "on-error-continue").withComponent logger

def construct : Except Error Construct := do
  pure <| withCustom "doc:name" (.simple "Order bridge")
    { attributes := .new "mule" "flow"
      refName := some "bridge"
      components :=
        [source, withGroup (general "message" (.simple "#[payload]")) logger, ← forEach]
      errorHandlers := [← errorHandler] }

def artifact (name : String) : Except Error Artifact := do
  let a ← (({} : Artifact).withName name).withGlobalElement (.configuration configuration)
  a.withGlobalElement (.construct (← construct))

end FlowArtifact.Sample
