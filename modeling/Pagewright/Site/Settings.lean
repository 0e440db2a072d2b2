import Pagewright.Text.Basic

/-! # `Site.Settings`: what a site says about how its documents are made -/

namespace Pagewright

/-- The settings under which documents are made. -/
structure SiteSettings where
  /-- Is the site still being worked on, with styles that a browser compiles? -/
  dev : Bool
  /-- What links begin with, or the word `relative`. -/
  url : Text
  /-- How deep partials may be nested. -/
  maxDepth : Nat
  /-- The field by which contents are put in order. -/
  sortKey : Text
deriving DecidableEq, Inhabited

namespace SiteSettings

/-- The base URL that stands for none. -/
def relativeUrl : Text := "relative".toList

/-- The settings of a site that says nothing about them. -/
def default : SiteSettings := ⟨false, relativeUrl, 32, "date".toList⟩

/-- What links begin with: the base URL without slashes at its end. -/
def baseUrl (s : SiteSettings) : Text :=
  if s.url = relativeUrl then [] else (s.url.reverse.dropWhile (· = '/')).reverse

end SiteSettings

end Pagewright
