import HttpSuite.Dialect

/-!
# The Rust dialect

A suite as a file of Rust integration tests. The client and the headers that all requests share
are built once, when the first test asks for them. Each request binds its response anew, so an
assertion is about the latest one.
-/

namespace HttpSuite.Dialect

namespace Rust

/-- The indentation of a statement. -/
def indent : String := "    "

/-- The indentation of a line that continues a statement. -/
def continuation : String := "        "

/-- The expression for a URL. -/
def url : Resolved.Url → String
  | .relative path => "format!(\"\x7b\x7d\x7b\x7d\", BASE, \"" ++ path ++ "\")"
  | .absolute url => "\"" ++ url ++ "\""

/-- The function of the client that starts a request. -/
def clientCall : Method → String
  | .get => "get"
  | .post => "post"
  | .put => "put"
  | .delete => "delete"

/-- What every file starts with. -/
def imports : List String :=
  [ "// Generated by testlang. Do not edit."
  , "#![allow(non_snake_case)]"
  , ""
  , "use std::sync::OnceLock;"
  , "use std::time::Duration;"
  , ""
  , "use reqwest::blocking::\x7bClient, RequestBuilder\x7d;"
  , "use reqwest::header::\x7bHeaderMap, HeaderName, HeaderValue\x7d;"
  , "" ]

/-- The types of every file, and the function that sends a request. -/
def helpers : List String :=
  [ ""
  , "struct Suite \x7b"
  , "    client: Client,"
  , "    default_headers: HeaderMap,"
  , "\x7d"
  , ""
  , "struct Captured \x7b"
  , "    status: u16,"
  , "    headers: HeaderMap,"
  , "    body: String,"
  , "\x7d"
  , ""
  , "impl Captured \x7b"
  , "    /// First value of a response header, or \"\" when absent."
  , "    fn header(&self, name: &str) -> &str \x7b"
  , "        self.headers"
  , "            .get(name)"
  , "            .and_then(|v| v.to_str().ok())"
  , "            .unwrap_or(\"\")"
  , "    \x7d"
  , "\x7d"
  , ""
  , "fn send(builder: RequestBuilder) -> Captured \x7b"
  , "    let resp = builder.send().expect(\"request failed\");"
  , "    let status = resp.status().as_u16();"
  , "    let headers = resp.headers().clone();"
  , "    let body = resp.text().expect(\"response body is not text\");"
  , "    Captured \x7b status, headers, body \x7d"
  , "\x7d"
  , "" ]

/-- The opening of the file. -/
def preamble (shared : Resolved.Shared) : List String :=
  imports ++ ["const BASE: &str = \"" ++ shared.baseUrl ++ "\";"] ++ helpers

/-- The statements that add one shared header. -/
def sharedHeader (h : Resolved.Pair) : List String :=
  [ "        default_headers.insert("
  , "            HeaderName::try_from(\"" ++ h.1 ++ "\").expect(\"invalid default header name '"
      ++ h.1 ++ "'\"),"
  , "            HeaderValue::from_str(\"" ++ h.2
      ++ "\").expect(\"invalid value for default header '" ++ h.1 ++ "'\"),"
  , "        );" ]

/-- The statements that build the shared headers. -/
def sharedHeaders (headers : List Resolved.Pair) : List String :=
  if headers.isEmpty then ["        let default_headers = HeaderMap::new();"]
  else "        let mut default_headers = HeaderMap::new();" :: headers.flatMap sharedHeader

/-- How the function starts that prepares the tests. -/
def setupStart : List String :=
  [ "fn suite() -> &'static Suite \x7b"
  , "    static SUITE: OnceLock<Suite> = OnceLock::new();"
  , "    SUITE.get_or_init(|| \x7b"
  , "        let client = Client::builder()" ]

/-- How the client is built, once its time limit is set. -/
def clientEnd : List String :=
  [ "            .build()"
  , "            .expect(\"failed to build HTTP client\");" ]

/-- How the function ends that prepares the tests. -/
def setupEnd : List String :=
  [ "        Suite \x7b client, default_headers \x7d"
  , "    \x7d)"
  , "\x7d"
  , "" ]

/-- The function that builds the client and the shared headers. -/
def setup (shared : Resolved.Shared) : List String :=
  setupStart
  ++ ["            .connect_timeout(Duration::from_secs(" ++ toString connectTimeout ++ "))"]
  ++ clientEnd
  ++ sharedHeaders shared.headers
  ++ setupEnd

/-- The lines that end the statement of a request: the time limit, and the body if one is sent. -/
def limits (body : Resolved.Body) : List String :=
  let timeout := continuation ++ ".timeout(Duration::from_secs(" ++ toString requestTimeout ++ "))"
  match body with
  | .none => [timeout ++ ";"]
  | .empty => [timeout, continuation ++ ".body(\"\");"]
  | .text content => [timeout, continuation ++ ".body(\"" ++ content ++ "\");"]

/-- A request. -/
def request (r : Resolved.Request) : List String :=
  [ indent ++ "let mut b = suite"
  , continuation ++ ".client"
  , continuation ++ "." ++ clientCall r.method ++ "(" ++ url r.url ++ ")" ]
  ++ limits r.body
  ++ r.headers.map (fun h => indent ++ "b = b.header(\"" ++ h.1 ++ "\", \"" ++ h.2 ++ "\");")
  ++ [indent ++ "b = b.headers(suite.default_headers.clone());"]
  ++ [indent ++ "let resp = send(b);", ""]

/-- An assertion. -/
def assertion (a : Resolved.Assertion) : String :=
  indent ++
    match a with
    | .statusEquals code => "assert_eq!(" ++ toString code.toInt ++ ", resp.status);"
    | .headerEquals key value =>
      "assert_eq!(\"" ++ value ++ "\", resp.header(\"" ++ key ++ "\"));"
    | .headerContains key value =>
      "assert!(resp.header(\"" ++ key ++ "\").contains(\"" ++ value ++ "\"));"
    | .bodyContains value => "assert!(resp.body.contains(\"" ++ value ++ "\"));"

/-- A text without the last of two line ends that close it. -/
def dropBlankEnd (text : String) : String :=
  match text.toList.reverse with
  | '\n' :: '\n' :: before => String.ofList ('\n' :: before).reverse
  | _ => text

end Rust

/-- Suites as a file of Rust tests. No blank line follows the last test. -/
def rust : Dialect where
  preamble := Rust.preamble
  setup := Rust.setup
  beginTest functionName :=
    ["#[test]", "fn " ++ functionName ++ "() \x7b", Rust.indent ++ "let suite = suite();"]
  request _ := Rust.request
  assertion := Rust.assertion
  endTest := ["\x7d", ""]
  finish := Rust.dropBlankEnd

end HttpSuite.Dialect
