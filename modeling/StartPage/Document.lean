import StartPage.Json.Reader
import StartPage.Session
import StartPage.Text.Blank
import StartPage.Text.Naming

/-!
Settings, sessions and snapshots as JSON documents: fields in the order of declaration, under
names made of their declared ones, and readers for the same documents. A reader wants every
field, each once, and passes over fields it does not know without giving them a meaning. A
structure may also stand as a list of its fields in order, and a name as a mapping from that
name to null.
-/
namespace StartPage

open Json (Node Literal)

namespace Json

def boolean? : Node → Option Bool
  | .boolean value => some value
  | _ => none

def text? : Node → Option String
  | .string literal => literal.text?
  | _ => none

def counter? : Node → Option UInt64
  | .number numeral =>
    match numeral.integer? with
    | some value => if 0 ≤ value ∧ value < UInt64.size then some (.ofNat value.toNat) else none
    | none => none
  | _ => none

def name? : Node → Option String
  | .string literal => literal.text?
  | .mapping [(key, .null)] => key.text?
  | _ => none

def list? {α : Type} (item : Node → Option α) : Node → Option (List α)
  | .list items => items.mapM item
  | _ => none

/-- The one value under a name; none when it is missing or repeated. -/
def only? (entries : List (String × Node)) (name : String) : Option Node :=
  match entries.filter fun entry => entry.1 == name with
  | [entry] => some entry.2
  | _ => none

def fields? (names : List String) : Node → Option (List Node)
  | .list items => if items.length = names.length then some items else none
  | .mapping entries => do
    let entries ← entries.mapM fun (key, node) => do return (← key.text?, node)
    names.mapM (only? entries)
  | _ => none

/-- Reads a text as a document. Its containers may be nested as deep as the text is long. -/
def readDocument {α : Type} (ofNode? : Node → Option α) (text : Bytes) : Option α :=
  (read text.length text).bind ofNode?

end Json

namespace Widget

def declared : Widget → String
  | rewards => "Rewards"
  | binance => "Binance"
  | together => "Together"
  | gemini => "Gemini"
  | bitcoinDotCom => "BitcoinDotCom"
  | cryptoDotCom => "CryptoDotCom"

def written (card : Widget) : String := Text.ofVariant card.declared

def ofNode? (node : Node) : Option Widget := do
  let text ← Json.name? node
  all.find? fun card => card.written == text

end Widget

namespace ClockFormat

def written : ClockFormat → String
  | locale => ""
  | twelveHour => "12"
  | twentyFourHour => "24"

def ofNode? (node : Node) : Option ClockFormat := do
  let text ← Json.name? node
  all.find? fun format => format.written == text

end ClockFormat

namespace TextDirection

def declared : TextDirection → String
  | ltr => "Ltr"
  | rtl => "Rtl"

def written (direction : TextDirection) : String := Text.lower direction.declared

def ofNode? (node : Node) : Option TextDirection := do
  let text ← Json.name? node
  all.find? fun direction => direction.written == text

def parse? (text : String) : Option TextDirection :=
  all.find? fun direction => direction.name == Text.lower text

end TextDirection

def Flag.declared : Flag → String
  | backgroundImage => "show_background_image"
  | stats => "show_stats"
  | clock => "show_clock"
  | topSites => "show_top_sites"
  | customLinks => "custom_links_enabled"
  | wallpaperDismissed => "is_branded_wallpaper_notification_dismissed"
  | emptyPage => "show_empty_page"
  | widget .rewards => "show_rewards"
  | widget .binance => "show_binance"
  | widget .together => "show_together"
  | widget .gemini => "show_gemini"
  | widget .bitcoinDotCom => "show_bitcoin_dot_com"
  | widget .cryptoDotCom => "show_crypto_dot_com"

namespace Field

def declared : Field → String
  | flag f => f.declared
  | clockFormat => "clock_format"
  | stackOrder => "widget_stack_order"
  | removed => "removed_stack_widgets"

def written (field : Field) : String := Text.ofField field.declared

end Field

namespace Settings

def writtenValue (settings : Settings) : Field → Value
  | .flag flag => .boolean (settings.flag flag)
  | .clockFormat => .string settings.clockFormat.written
  | .stackOrder => .list (settings.stackOrder.map fun card => .string card.written)
  | .removed => .list (settings.removed.map fun card => .string card.written)

def writtenEntries (settings : Settings) : List (String × Value) :=
  Field.all.map fun field => (field.written, settings.writtenValue field)

def document (settings : Settings) : Value := .mapping settings.writtenEntries

def readNode (settings : Settings) (field : Field) (node : Node) : Option Settings :=
  match field with
  | .flag flag => (Json.boolean? node).map (settings.setFlag flag)
  | .clockFormat => (ClockFormat.ofNode? node).map fun value => { settings with clockFormat := value }
  | .stackOrder =>
    (Json.list? Widget.ofNode? node).map fun value => { settings with stackOrder := value }
  | .removed => (Json.list? Widget.ofNode? node).map fun value => { settings with removed := value }

def ofNode? (node : Node) : Option Settings := do
  let nodes ← Json.fields? (Field.all.map Field.written) node
  (Field.all.zip nodes).foldlM (fun settings (field, node) => settings.readNode field node) default

end Settings

namespace Counters

def names : List String :=
  ["ads_blocked_stat", "javascript_blocked_stat", "bandwidth_saved_stat",
    "fingerprinting_blocked_stat"].map Text.ofField

def values (counters : Counters) : List UInt64 :=
  [counters.adsBlocked, counters.javascriptBlocked, counters.bandwidthSaved,
    counters.fingerprintingBlocked]

def entries (counters : Counters) : List (String × Value) :=
  names.zip (counters.values.map fun value => .ofNat value.toNat)

def document (counters : Counters) : Value := .mapping counters.entries

def ofNode? (node : Node) : Option Counters := do
  match ← (← Json.fields? names node).mapM Json.counter? with
  | [ads, javascript, bandwidth, fingerprinting] =>
    return ⟨ads, javascript, bandwidth, fingerprinting⟩
  | _ => none

end Counters

namespace Session

def names : List String :=
  ["initial_data_loaded", "text_direction", "is_incognito",
    "use_alternative_private_search_engine", "tor_circuit_established", "tor_init_progress",
    "is_tor", "is_qwant", "stats"].map Text.ofField

/-- All fields but the counters, which come last. -/
def values (session : Session) : List Value :=
  [.boolean session.loaded, .string session.direction.written, .boolean session.incognito,
    .boolean session.alternativeSearch, .boolean session.torCircuit, .string session.torProgress,
    .boolean session.tor, .boolean session.qwant]

def entries (session : Session) : List (String × Value) :=
  names.zip (session.values ++ [session.counters.document])

def document (session : Session) : Value := .mapping session.entries

def ofNode? (node : Node) : Option Session := do
  match ← Json.fields? names node with
  | [loaded, direction, incognito, search, circuit, progress, tor, qwant, counters] =>
    return {
      loaded := ← Json.boolean? loaded
      direction := ← TextDirection.ofNode? direction
      incognito := ← Json.boolean? incognito
      alternativeSearch := ← Json.boolean? search
      torCircuit := ← Json.boolean? circuit
      torProgress := ← Json.text? progress
      tor := ← Json.boolean? tor
      qwant := ← Json.boolean? qwant
      counters := ← Counters.ofNode? counters }
  | _ => none

end Session

def Snapshot.document (snapshot : Snapshot) : Value :=
  .mapping (snapshot.settings.writtenEntries ++ snapshot.session.entries)

end StartPage
