import Pagewright.Site.Settings
import Pagewright.Toml.Document

/-! # `Config.File`: what a configuration file says

The file is a document in TOML with the tables `site`, `build` and `template`. What it does not say has a
default, keys that nobody knows are passed over, and a value of the wrong kind is an error. A table may also be
written as an array of its values in their order.
-/

namespace Pagewright.Config

open Toml (Value)

/-- What a configuration file says. -/
structure ConfigFile where
  /-- Where the site is, as seen from the file. -/
  root : Option Text
  url : Text
  /-- Where the documents are written to, as seen from the file. -/
  outputDir : Option Text
  dev : Bool
  maxDepth : Nat
  sortKey : Text
deriving DecidableEq, Inhabited

/-- The entries of a table that may be missing; its keys are given in their order. -/
def tableEntries? (keys : List Text) : Option Value → Option (List (Text × Value))
  | none => some []
  | some (.table entries) => some entries
  | some (.array items) => some (keys.zip items)
  | some _ => none

/-- The text under a key that may be missing. -/
def textEntry? (key : String) (entries : List (Text × Value)) : Option (Option Text) :=
  match entries.lookup key.toList with
  | none => some none
  | some (.text t) => some (some t)
  | some _ => none

/-- The truth value under a key that may be missing. -/
def flagEntry? (key : String) (entries : List (Text × Value)) : Option (Option Bool) :=
  match entries.lookup key.toList with
  | none => some none
  | some (.boolean b) => some (some b)
  | some _ => none

/-- The number under a key that may be missing. -/
def countEntry? (key : String) (entries : List (Text × Value)) : Option (Option Nat) :=
  match entries.lookup key.toList with
  | none => some none
  | some (.integer i) => if 0 ≤ i && i ≤ Text.wordMax then some (some i.toNat) else none
  | some _ => none

/-- The keys of the table `site`. -/
def siteKeys : List Text := ["root"].map String.toList

/-- The keys of the table `build`. -/
def buildKeys : List Text := ["url", "output_dir", "dev"].map String.toList

/-- The keys of the table `template`. -/
def templateKeys : List Text := ["max_depth", "sort_key"].map String.toList

/-- What the text of a configuration file says. -/
def ConfigFile.parse? (t : Text) : Option ConfigFile := do
  let document ← Toml.document? t
  let site ← tableEntries? siteKeys (document.lookup "site".toList)
  let build ← tableEntries? buildKeys (document.lookup "build".toList)
  let template ← tableEntries? templateKeys (document.lookup "template".toList)
  let default := SiteSettings.default
  return {
    root := ← textEntry? "root" site
    url := (← textEntry? "url" build).getD default.url
    outputDir := ← textEntry? "output_dir" build
    dev := (← flagEntry? "dev" build).getD default.dev
    maxDepth := (← countEntry? "max_depth" template).getD default.maxDepth
    sortKey := (← textEntry? "sort_key" template).getD default.sortKey }

end Pagewright.Config
