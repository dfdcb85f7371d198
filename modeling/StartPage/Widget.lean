/-!
The cards that live in the stack in the corner of the page. `Widget.all` is the table order,
in which cards that nobody placed are put.
-/
namespace StartPage

inductive Widget where
  | rewards
  | binance
  | together
  | gemini
  | bitcoinDotCom
  | cryptoDotCom
deriving DecidableEq, Repr, Inhabited

namespace Widget

def all : List Widget := [rewards, binance, together, gemini, bitcoinDotCom, cryptoDotCom]

def name : Widget → String
  | rewards => "rewards"
  | binance => "binance"
  | together => "together"
  | gemini => "gemini"
  | bitcoinDotCom => "bitcoinDotCom"
  | cryptoDotCom => "cryptoDotCom"

def showKey : Widget → String
  | rewards => "showRewards"
  | binance => "showBinance"
  | together => "showTogether"
  | gemini => "showGemini"
  | bitcoinDotCom => "showBitcoinDotCom"
  | cryptoDotCom => "showCryptoDotCom"

def ofName? (text : String) : Option Widget := all.find? fun widget => widget.name == text

@[simp] theorem mem_all (widget : Widget) : widget ∈ all := by cases widget <;> decide

@[simp] theorem ofName?_name (widget : Widget) : ofName? widget.name = some widget := by
  cases widget <;> decide

theorem name_of_ofName? {text : String} {widget : Widget} (found : ofName? text = some widget) :
    widget.name = text := by
  simpa using List.find?_some found

end Widget
end StartPage
