import Pagewright.Site.Basic

/-! # `Site.Shortcode`: style sheets and addresses

`{tailwindcss}` stands for the style sheet of the site, `{ url('/path') }` for an address on the site.
-/

namespace Pagewright.Shortcode

/-- What compiles the styles in a browser while the site is being worked on. -/
def browserCompiler : Text :=
  ("<script src=\"https://cdn.jsdelivr.net/npm/@tailwindcss/browser@4" ++
    "?plugins=forms,typography,aspect-ratio,line-clamp\"></script>").toList

/-- Lines of a style sheet that the compiler in the browser does not know. -/
def unknownDirectives : List Text :=
  ["@tailwind base;".toList, "@tailwind components;".toList, "@tailwind utilities;".toList]

/-- The markup for the style sheet: a link to it, or, while the site is being worked on, the compiler and the
style sheet itself. -/
def styles {σ : Type} [Storage σ] (site : Site σ) : Text :=
  if site.settings.dev then
    browserCompiler ++
      match Storage.read site.store SitePath.styleSheet with
      | .ok css =>
        let css := unknownDirectives.foldl (fun css d => Text.replaceFirst d [] css) css
        "<style>".toList ++ css ++ "</style>".toList
      | .error _ => []
  else
    "<link href=\"".toList ++ site.settings.baseUrl ++ '/' :: SitePath.styleSheet.text ++
      "\" rel=\"stylesheet\">".toList

/-- An address: the path in it, and what follows. -/
def address? (t : Text) : Option (Text × Text) := do
  let r ← Text.after? ['\x7b'] t
  let r ← Text.after? "url('".toList (Text.trimStart r)
  let path := r.takeWhile (· != '\'')
  if path.isEmpty then none
  let r ← Text.after? "')".toList (r.dropWhile (· != '\''))
  let rest ← Text.after? ['\x7d'] (Text.trimStart r)
  return (path, rest)

/-- Puts the base URL in front of the paths of addresses. -/
def expandAddresses (base : Text) : Text → Text :=
  Text.substitute fun t => (address? t).map fun (path, rest) => (base ++ path, rest)

/-- Replaces the first mark for the style sheet, and all addresses. -/
def expand {σ : Type} [Storage σ] (site : Site σ) (t : Text) : Text :=
  expandAddresses site.settings.baseUrl
    (Text.replaceFirst "\x7btailwindcss\x7d".toList (styles site) t)

end Pagewright.Shortcode
