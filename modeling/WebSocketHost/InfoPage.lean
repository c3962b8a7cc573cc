/-!
The page shown to a browser that asks for anything but an upgrade. It opens a
connection to the upgrade path and lists what arrives.
-/
namespace WebSocketHost.InfoPage

/-- The lines of the page. The path is put between quotation marks as it is. -/
def lines (path : String) : List String := [
  "<!DOCTYPE html>",
  "<html>",
  "  <head>",
  "    <meta charset=\"utf-8\">",
  "    <title>wsdock WebSocket Test Page</title>",
  "    <script>",
  "      var scheme = location.protocol === \"https:\" ? \"wss://\" : \"ws://\";",
  "      var connection = new WebSocket(scheme + location.host + \"" ++ path ++ "\");",
  "      connection.onmessage = function (msg) \x7b",
  "        var element = document.createElement(\"p\");",
  "        element.textContent = msg.data;",
  "        document.getElementById(\"websocket-stream\").appendChild(element);",
  "      \x7d;",
  "    </script>",
  "  </head>",
  "  <body>",
  "    <h1>WebSocket Stream</h1>",
  "    <div id=\"websocket-stream\"></div>",
  "  </body>",
  "</html>"]

/-- Every line ends with a line feed, the last one too. -/
def html (path : String) : String := String.join ((lines path).map (· ++ "\n"))

end WebSocketHost.InfoPage
