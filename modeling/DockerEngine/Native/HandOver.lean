import DockerEngine.Js.InlineJson
import DockerEngine.Native.WildcardRoute

/-!
# The state in the page (`server/routes/wildcardRoute.js`, `src/index.js`)

The page of a request has the state of the store in a script, which the browser runs before the
script of the client makes its store from what has been assigned. The markup of the
components is a parameter.

The browser reads the value as JSON. As a literal of JavaScript it means the same: a member
`__proto__`, which would not, is in no state.
-/

namespace Timeline

open Js

/-! ## The server -/

/-- `store.getState()`, with the slice of the router as it is on the server. -/
def storeState (timelineState : Json) : Json :=
  .object [
    (js "timelineState", timelineState),
    (js "routing", .object [(js "locationBeforeTransitions", .null)])]

/-- The page up to the script. -/
def documentStart : JsString :=
  js "\n                <!DOCTYPE html>\n                <html>\n                  <head>\n" ++
    js "                    <meta charset=\"utf-8\">\n                    <base href=\"/\">   \n" ++
    js "                    "

/-- The script. -/
def assignment (initialState : Json) : JsString :=
  js "\n                        window.__INITIAL_STATE__ = " ++ stringify initialState ++
    js ";\n                    "

/-- The page behind the name of the end tag of the script. -/
def documentEnd (componentHTML : JsString) : JsString :=
  js ">\n                    <meta charset=\"UTF-8\">\n" ++
    js "                    <title>Hacker's Hall</title>\n" ++
    js "                    <link rel=\"shortcut icon\" href=\"favicon.ico?ver=1\" />\n" ++
    js "                    <link rel=\"stylesheet\" href=\"/styles.css\" type=\"text/css\">" ++
    js "             \n                  </head>\n                  <body>\n" ++
    js "                    <div id=\"app\">" ++ componentHTML ++ js "</div>\n" ++
    js "                    <script src=\"/bundle.js\"></script>\n                  </body>\n" ++
    js "                </html>\n            "

/-- `HTML` in `renderView`. -/
def pageHTML (componentHTML : JsString) (initialState : Json) : JsString :=
  documentStart ++ js "<script>" ++ assignment initialState ++ js "</script" ++
    documentEnd componentHTML

/-! ## The browser -/

/-- The value that a script assigns to `window.__INITIAL_STATE__`. -/
def readInitialState (script : JsString) : Option Json := do
  let name := js "window.__INITIAL_STATE__"
  let s := skipSpace script
  guard (name <+: s)
  let s ← expect 61 (s.drop name.length)
  let (v, s) ← readValue s.length s
  let s ← expect 59 s
  guard (skipSpace s = [])
  return v

end Timeline
