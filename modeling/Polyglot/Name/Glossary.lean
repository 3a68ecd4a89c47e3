import Polyglot.Name.Case
import Polyglot.Ruleset.Basic

/-!
Method names that are renamed wherever they are called. The glossary serves names that every class
shares; `renameCalls` serves the methods of one class.
-/

namespace Polyglot

namespace Name

/-- A name in camel case and the name that replaces it. -/
structure Entry where
  camel : String
  snake : String
  deriving DecidableEq, Repr

abbrev Glossary := List Entry

def Glossary.ofNames (names : List String) : Glossary :=
  names.map fun name => ⟨name, underscored name⟩

open Pattern (char seqAll star group text blanks)

/-- Renames calls through a member access. The blanks before the arguments are kept. -/
def Entry.callRule (e : Entry) : Rule where
  matcher :=
    { source := r"\." ++ Pattern.quote e.camel ++ r"(\s*\()"
      pattern := seqAll (text "." ++ text e.camel ++ [group 1 (seqAll (blanks :: text "("))])
      names := [] }
  template := "." ++ e.snake ++ "${1}"

def Glossary.callRules (glossary : Glossary) : Ruleset :=
  ⟨"identifier-registry", glossary.map Entry.callRule⟩

/-- How a call on the object itself is written: what precedes a method's name, and what comes
between the name and the arguments. -/
structure CallStyle where
  receiver : String
  separator : String
  deriving DecidableEq, Repr

/-- The new spelling of a call whose method is the first group of the match. -/
def CallStyle.renamed (style : CallStyle) (m : Match) : List Char :=
  style.receiver.toList ++ underscoredChars (m.group 1) ++ style.separator.toList ++ ['(']

/-- A call of a method on the receiver, with blanks before the arguments or without. -/
def CallStyle.callPattern (style : CallStyle) (method : String) : Pattern :=
  seqAll (text style.receiver ++ [group 1 (seqAll (text method)), blanks] ++ text "(")

/-- Renames the calls of the given methods, one method after another. -/
def CallStyle.renameCalls (style : CallStyle) (methods : List String) (s : List Char) : List Char :=
  methods.foldl (fun s method => (style.callPattern method).replaceAll style.renamed s) s

/-- Renames calls on a receiver that is itself given as a pattern. If that pattern has groups, the
first of them is taken for the method's name. -/
def CallStyle.renameCallsOn (style : CallStyle) (receiver : String) (methods : List String)
    (s : List Char) : Except Failure (List Char) :=
  methods.foldlM (fun s method =>
    match Matcher.ofSource (receiver ++ "(" ++ Pattern.quote method ++ r")\s*\(") with
    | .ok matcher => .ok (matcher.pattern.replaceAll style.renamed s)
    | .error flaw => .error (.pattern flaw.message)) s

/-- The methods that all classes share. -/
def standard : List String :=
  [ "deepExtend", "safeFloat2", "safeInteger2", "safeIntegerProduct2", "safeTimestamp2",
    "safeString2", "safeStringLower2", "safeStringUpper2", "safeValue2", "safeFloat",
    "safeInteger", "safeIntegerProduct", "safeTimestamp", "safeString", "safeStringLower",
    "safeStringUpper", "safeValue", "inArray", "toArray", "isEmpty", "arrayConcat",
    "binaryConcat", "binaryConcatArray", "binaryToString", "precisionFromString",
    "implodeParams", "extractParams", "parseBalance", "parseOHLCVs", "parseOHLCV", "parseDate",
    "parseLedgerEntry", "parseLedger", "parseTicker", "parseTimeframe", "parseTradesData",
    "parseTrades", "parseTrade", "parseTradingViewOHLCV", "parseTransaction",
    "parseTransactions", "parseOrderBook", "parseBidsAsks", "parseBidAsk", "parseOrders",
    "parseOrderStatus", "parseOrder", "parseJson", "filterByArray", "filterBySymbolSinceLimit",
    "filterBySinceLimit", "filterBySymbol", "getVersionString", "indexBy", "sortBy", "filterBy",
    "groupBy", "findMarket", "findSymbol", "marketIds", "marketId", "fetchFundingFees",
    "fetchTradingFees", "fetchTradingFee", "fetchFees", "fetchL2OrderBook", "fetchOrderBook",
    "fetchMyTrades", "fetchOrderStatus", "fetchOpenOrders", "fetchOpenOrder", "fetchOrders",
    "fetchOrderTrades", "fetchOrder", "fetchBidsAsks", "fetchTickers", "fetchTicker",
    "fetchCurrencies", "numberToString", "decimalToPrecision", "priceToPrecision",
    "amountToPrecision", "amountToLots", "feeToPrecision", "currencyToPrecision",
    "costToPrecision", "commonCurrencyCode", "loadAccounts", "loadFees", "loadMarkets",
    "fetchMarkets", "appendInactiveMarkets", "fetchCategories", "calculateFee",
    "editLimitBuyOrder", "editLimitSellOrder", "editLimitOrder", "editOrder",
    "encodeURIComponent", "throwExceptionOnError", "handleErrors", "checkRequiredCredentials",
    "checkRequiredDependencies", "checkAddress", "convertTradingViewToOHLCV",
    "convertOHLCVToTradingView", "signBodyWithSecret", "isJsonEncodedObject", "setSandboxMode",
    "safeCurrencyCode", "roundTimeframe", "integerDivide", "integerModulo", "integerPow",
    "base16ToBinary" ]

end Name

end Polyglot
