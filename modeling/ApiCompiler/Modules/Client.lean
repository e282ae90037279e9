import ApiCompiler.Modules.Connections

/-!
The client module: the address of the interface, and a function that makes a client for a
connection the component declares.
-/

namespace ApiCompiler.Modules

open Component Script

def clientPath : String := "src/client.ts"

def toAuthorizationHeaders : Step :=
  .block "(connection: Connection): \x7b Authorization: string \x7d => \x7b" "\x7d"
    [.line "const accessToken = util.types.toString(connection.token?.access_token);",
      .block "if (accessToken) \x7b" "\x7d"
        [.line "return \x7b Authorization: \x60Bearer $\x7baccessToken\x7d\x60 \x7d;"],
      .blankLine,
      .line "const apiKey = util.types.toString(connection.fields?.apiKey);",
      .block "if (apiKey) \x7b" "\x7d"
        [.line "return \x7b Authorization: \x60Bearer $\x7bapiKey\x7d\x60 \x7d;"],
      .blankLine,
      .line "const username = util.types.toString(connection.fields?.username);",
      .line "const password = util.types.toString(connection.fields?.password);",
      .block "if (username && password) \x7b" "\x7d"
        [.line ("const encoded = Buffer.from(\x60$\x7busername\x7d:$\x7bpassword\x7d\x60)" ++
            ".toString(\"base64\");"),
          .line "return \x7b Authorization: \x60Basic $\x7bencoded\x7d\x60 \x7d;"],
      .blankLine,
      .block "throw new Error(" ");"
        [.line ("\x60Failed to guess at authorization parameters for Connection: " ++
          "$\x7bconnection.key\x7d\x60")]]

def createClient : Step :=
  .block "(connection: Connection): HttpClient => \x7b" "\x7d"
    [.block "if (!connectionKeys.includes(connection.key)) \x7b" "\x7d"
        [.block "throw new ConnectionError(" ");"
          [.line "connection,",
            .line "\x60Received unexpected connection type: $\x7bconnection.key\x7d\x60"]],
      .blankLine,
      .block "const client = createHttpClient(\x7b" "\x7d);"
        [.line "baseUrl,",
          .block "headers: \x7b" "\x7d,"
            [.line "...toAuthorizationHeaders(connection),",
              .line "Accept: \"application/json\","],
          .line "responseType: \"json\","],
      .line "return client;"]

def clientModule (baseUrl : String) (connections : List Connection) : SourceFile :=
  let keys := connections.map Connection.key
  { path := clientPath
    imports :=
      ((Imports.addNamed sdkModule ["Connection", "ConnectionError", "util"] {}).addNamed
        httpClientModule ["HttpClient", "createClient as createHttpClient"]).addNamed
        "./connections" keys
    declarations :=
      [{ name := "baseUrl", value := .text (stringLiteral baseUrl), isExported := true },
        { name := "connectionKeys"
          value := .text (listLiteral (keys.map fun key => key ++ ".key"))
          annotation := some "string[]" },
        { name := "toAuthorizationHeaders", value := .steps [toAuthorizationHeaders] },
        { name := "createClient", value := .steps [createClient], isExported := true }] }

end ApiCompiler.Modules
