import SiteManifest.Main
import SiteManifest.Proofs.Command.Init
import SiteManifest.Proofs.Command.Starter
import SiteManifest.Proofs.Command.Written
import SiteManifest.Proofs.Site.Checking
import SiteManifest.Proofs.Site.KeyOrder
import SiteManifest.Proofs.Site.Layouts
import SiteManifest.Proofs.Site.Loading
import SiteManifest.Proofs.Site.Parts
import SiteManifest.Proofs.Site.References
import SiteManifest.Proofs.Site.Told
import SiteManifest.Proofs.Json.RoundTrip
import SiteManifest.Proofs.Site.Accessors
import SiteManifest.Proofs.Site.Reloading
import SiteManifest.Proofs.Site.Shorthand
import SiteManifest.Proofs.Manifest.Nearest
import SiteManifest.Proofs.Site.Present
import SiteManifest.Proofs.Site.PresetFiles
import SiteManifest.Proofs.Site.Suggestions
import SiteManifest.Proofs.Site.External
import SiteManifest.Proofs.Command.Failed
import SiteManifest.Proofs.Site.Verbatim
import SiteManifest.Proofs.Site.Locations
