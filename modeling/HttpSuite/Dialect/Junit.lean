import HttpSuite.Dialect

/-!
# The JUnit dialect

A suite as one JUnit class. Requests go through a client that the set-up builds; the headers that
all requests share are kept in a map and added last. The first request of a test declares the two
locals that later requests assign.
-/

namespace HttpSuite.Dialect

namespace Junit

/-- The indentation of a statement. -/
def indent : String := "        "

/-- The indentation of a line that continues a statement. -/
def continuation : String := "            "

/-- The expression for a URL. -/
def url : Resolved.Url → String
  | .relative path => "BASE + \"" ++ path ++ "\""
  | .absolute url => "\"" ++ url ++ "\""

/-- The call that sets the method and the body of a request. -/
def methodCall (r : Resolved.Request) : String :=
  let argument :=
    match r.body with
    | .none => ""
    | .empty => "HttpRequest.BodyPublishers.noBody()"
    | .text content => "HttpRequest.BodyPublishers.ofString(\"" ++ content ++ "\")"
  "." ++ r.method.verb ++ "(" ++ argument ++ ")"

/-- What every class imports. -/
def imports : List String :=
  [ "import org.junit.jupiter.api.*;"
  , "import static org.junit.jupiter.api.Assertions.*;"
  , "import java.net.http.*;"
  , "import java.net.*;"
  , "import java.time.Duration;"
  , "import java.nio.charset.StandardCharsets;"
  , "import java.util.*;"
  , "" ]

/-- The fields of every class behind the base URL. -/
def fields : List String :=
  [ "    static Map<String,String> DEFAULT_HEADERS = new HashMap<>();"
  , "    static HttpClient client;"
  , "" ]

/-- The opening of the class. -/
def preamble (className : String) (shared : Resolved.Shared) : List String :=
  imports
  ++ [ "public class " ++ className ++ " \x7b"
     , ""
     , "    static String BASE = \"" ++ shared.baseUrl ++ "\";" ]
  ++ fields

/-- How the method starts that prepares the tests. -/
def setupStart : List String :=
  [ "    @BeforeAll"
  , "    static void setup() \x7b" ]

/-- What closes a method. -/
def methodEnd : List String := ["    \x7d", ""]

/-- The method that builds the client and fills the map of shared headers. -/
def setup (shared : Resolved.Shared) : List String :=
  setupStart
  ++ [ indent ++ "client = HttpClient.newBuilder().connectTimeout(Duration.ofSeconds("
        ++ toString connectTimeout ++ ")).build();" ]
  ++ shared.headers.map (fun h =>
      indent ++ "DEFAULT_HEADERS.put(\"" ++ h.1 ++ "\",\"" ++ h.2 ++ "\");")
  ++ methodEnd

/-- A request. -/
def request (first : Bool) (r : Resolved.Request) : List String :=
  let builder := if first then "HttpRequest.Builder b" else "b"
  let response := if first then "HttpResponse<String> resp" else "resp"
  [ indent ++ builder ++ " = HttpRequest.newBuilder(URI.create(" ++ url r.url ++ "))"
  , continuation ++ ".timeout(Duration.ofSeconds(" ++ toString requestTimeout ++ "))"
  , continuation ++ methodCall r ++ ";" ]
  ++ r.headers.map (fun h => indent ++ "b.header(\"" ++ h.1 ++ "\", \"" ++ h.2 ++ "\");")
  ++ [ indent
        ++ "for (var e: DEFAULT_HEADERS.entrySet()) b.header(e.getKey(), e.getValue());" ]
  ++ [ indent ++ response
        ++ " = client.send(b.build(), HttpResponse.BodyHandlers.ofString(StandardCharsets.UTF_8));"
     , "" ]

/-- An assertion. -/
def assertion (a : Resolved.Assertion) : String :=
  indent ++
    match a with
    | .statusEquals code => "assertEquals(" ++ toString code.toInt ++ ", resp.statusCode());"
    | .headerEquals key value =>
      "assertEquals(\"" ++ value ++ "\", resp.headers().firstValue(\"" ++ key
        ++ "\").orElse(\"\"));"
    | .headerContains key value =>
      "assertTrue(resp.headers().firstValue(\"" ++ key ++ "\").orElse(\"\").contains(\"" ++ value
        ++ "\"));"
    | .bodyContains value => "assertTrue(resp.body().contains(\"" ++ value ++ "\"));"

end Junit

/-- Suites as a JUnit class of this name. -/
def junit (className : String) : Dialect where
  preamble := Junit.preamble className
  setup := Junit.setup
  beginTest functionName :=
    ["    @Test", "    void " ++ functionName ++ "() throws Exception \x7b"]
  request := Junit.request
  assertion := Junit.assertion
  endTest := Junit.methodEnd
  finish text := text ++ "\x7d\n"

end HttpSuite.Dialect
