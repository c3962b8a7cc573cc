import WebSocketHost.Response

/-! The four responses as they are written: a status line, the headers, an empty line and the body.
The texts are given as a whole here, and a response is shown to be put together to just that. -/
namespace WebSocketHost

namespace InfoPage

/-- The call by which the page opens a connection. -/
def call (path : String) : String :=
  "new WebSocket(scheme + location.host + \"" ++ path ++ "\")"

/-- The page as far as that call. -/
def beforeCall : String :=
  "<!DOCTYPE html>\n" ++
  "<html>\n" ++
  "  <head>\n" ++
  "    <meta charset=\"utf-8\">\n" ++
  "    <title>wsdock WebSocket Test Page</title>\n" ++
  "    <script>\n" ++
  "      var scheme = location.protocol === \"https:\" ? \"wss://\" : \"ws://\";\n" ++
  "      var connection = "

/-- The rest of the page, which does not depend on the path. -/
def afterCall : String :=
  ";\n" ++
  "      connection.onmessage = function (msg) \x7b\n" ++
  "        var element = document.createElement(\"p\");\n" ++
  "        element.textContent = msg.data;\n" ++
  "        document.getElementById(\"websocket-stream\").appendChild(element);\n" ++
  "      \x7d;\n" ++
  "    </script>\n" ++
  "  </head>\n" ++
  "  <body>\n" ++
  "    <h1>WebSocket Stream</h1>\n" ++
  "    <div id=\"websocket-stream\"></div>\n" ++
  "  </body>\n" ++
  "</html>\n"

theorem lines_eq (path : String) : lines path = (lines "").take 7 ++
    ("      var connection = " ++ call path ++ ";") :: (lines "").drop 8 := by
  have hopen : "      var connection = new WebSocket(scheme + location.host + \"" =
      "      var connection = " ++ "new WebSocket(scheme + location.host + \"" := rfl
  have hclose : "\");" = "\")" ++ ";" := rfl
  unfold lines call
  rw [hopen, hclose]
  simp only [String.append_assoc]
  rfl

theorem html_eq (path : String) : html path = beforeCall ++ call path ++ afterCall := by
  have hbefore : beforeCall =
      String.join (((lines "").take 7).map (· ++ "\n")) ++ "      var connection = " := rfl
  have hafter : afterCall =
      ";" ++ "\n" ++ String.join (((lines "").drop 8).map (· ++ "\n")) := rfl
  rw [html, lines_eq, List.map_append, List.map_cons, String.join_append, String.join_cons,
    hbefore, hafter]
  simp only [String.append_assoc]

end InfoPage

theorem Upgrade.acceptKey_eq (key : String) : acceptKey key = Base64.toText (Sha1.digest
    (Text.utf8 (Text.trim key ++ "258EAFA5-E914-47DA-95CA-C5AB0DC85B11"))) := rfl

namespace Response

namespace Literal

/-- Only the value that proves that the key was read is not the same each time. -/
def switchingProtocols (key : String) : String :=
  "HTTP/1.1 101 Switching Protocols\r\n" ++
  "Upgrade: websocket\r\n" ++
  "Connection: Upgrade\r\n" ++
  "Sec-WebSocket-Accept: " ++ Base64.toText (Sha1.digest
    (Text.utf8 (Text.trim key ++ "258EAFA5-E914-47DA-95CA-C5AB0DC85B11"))) ++ "\r\n" ++
  "\r\n"

def page (body : String) : String :=
  "HTTP/1.1 200 OK\r\n" ++
  "Content-Type: text/html\r\n" ++
  "Content-Length: " ++ toString body.utf8ByteSize ++ "\r\n" ++
  "Connection: close\r\n" ++
  "\r\n" ++ body

def infoPage (path : String) : String :=
  page (InfoPage.beforeCall ++ InfoPage.call path ++ InfoPage.afterCall)

def methodNotAllowed : String :=
  "HTTP/1.1 405 Method Not Allowed\r\n" ++
  "Connection: close\r\n" ++
  "Content-Length: 0\r\n" ++
  "\r\n"

def badRequest : String :=
  "HTTP/1.1 400 Bad Request\r\n" ++
  "Sec-WebSocket-Version: 13\r\n" ++
  "Connection: close\r\n" ++
  "Content-Length: 0\r\n" ++
  "\r\n"

end Literal

theorem toText_eq (r : Response) : r.toText =
    "HTTP/1.1 " ++ Nat.repr r.status ++ " " ++ r.reason ++ "\r\n" ++
      String.join (r.headers.map fun (name, value) => name ++ ": " ++ value ++ "\r\n") ++
      "\r\n" ++ r.body := rfl

theorem toText_switchingProtocols (key : String) :
    (switchingProtocols key).toText = Literal.switchingProtocols key := by
  have hstatus : Nat.repr 101 = "101" := rfl
  unfold Literal.switchingProtocols
  rw [toText_eq, ← Upgrade.acceptKey_eq]
  simp [switchingProtocols, hstatus, String.join_cons, ← String.append_assoc]

theorem toText_page (body : String) : (page body).toText = Literal.page body := by
  have hstatus : Nat.repr 200 = "200" := rfl
  unfold Literal.page
  rw [toText_eq]
  simp [page, hstatus, String.join_cons, ← String.append_assoc]

theorem toText_infoPage (path : String) : (infoPage path).toText = Literal.infoPage path := by
  rw [infoPage, toText_page, InfoPage.html_eq, Literal.infoPage]

theorem toText_methodNotAllowed : methodNotAllowed.toText = Literal.methodNotAllowed := rfl

theorem toText_badRequest : badRequest.toText = Literal.badRequest := rfl

end Response

end WebSocketHost
