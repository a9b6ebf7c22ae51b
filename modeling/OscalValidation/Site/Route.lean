import OscalValidation.Document.Type
import OscalValidation.Site.Pattern

set_option autoImplicit false

/-! # Routes of the documentation site

The site has a page for each ruleset and each type of document. A page has one address, and
an address leads to at most one page: the first pattern of the table that it matches with a
ruleset there is.
-/

namespace OscalValidation.Site

/-- **A page of the site.** -/
inductive Route
  | home
  | summary (ruleset : Ruleset)
  /-- The rules for documents of a type. -/
  | document (type : DocumentType) (ruleset : Ruleset)
  | developers
deriving DecidableEq

/-- A kind of page: an entry of the table. -/
inductive Page
  | single (route : Route)
  /-- A page that each ruleset has. -/
  | perRuleset (route : Ruleset → Route)

/-- The name of the parameter for the ruleset. -/
def rulesetParameter : String := "ruleset"

/-- The pattern of the page of a type. -/
def documentPattern (type : DocumentType) : AddressPattern :=
  .ofString ("#/:ruleset/documents/" ++ type.slug)

/-- **The table of pages** with the patterns of their addresses. -/
def table : List (AddressPattern × Page) :=
  [(.ofString "#/", .single .home),
    (.ofString "#/:ruleset/documents", .perRuleset .summary),
    (documentPattern .poam, .perRuleset (.document .poam)),
    (documentPattern .sap, .perRuleset (.document .sap)),
    (documentPattern .sar, .perRuleset (.document .sar)),
    (documentPattern .ssp, .perRuleset (.document .ssp)),
    (.ofString "#/developers", .single .developers)]

/-- The page of an entry for the values of its parameters; there is none for a ruleset that is
not known. -/
def Page.route? (page : Page) (values : List (String × String)) : Option Route :=
  match page with
  | .single route => some route
  | .perRuleset route =>
      ((values.lookup rulesetParameter).bind Ruleset.ofKey?).map route

/-- **The page that an address leads to.** -/
def routeOf? (address : String) : Option Route :=
  table.findSome? fun (pattern, page) => (pattern.match? address).bind page.route?

/-- **The address of a page.** -/
def Route.address : Route → String
  | home => "#/"
  | summary ruleset => s!"#/{ruleset.key}/documents"
  | document type ruleset => s!"#/{ruleset.key}/documents/{type.slug}"
  | developers => "#/developers"

end OscalValidation.Site
