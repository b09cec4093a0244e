import OidcGatekeeper.Runs
import OidcGatekeeper.Handlers
import OidcGatekeeper.Juju
import OidcGatekeeper.Pebble
import OidcGatekeeper.JsonStrings
import OidcGatekeeper.Hook
import OidcGatekeeper.DexOidcConfig
import OidcGatekeeper.ForwardAuth
import OidcGatekeeper.Charm
import OidcGatekeeper.Dicts
import OidcGatekeeper.Loops
import OidcGatekeeper.MainRun
import OidcGatekeeper.Application
import OidcGatekeeper.Outcome
import OidcGatekeeper.Separators
import OidcGatekeeper.SkipAuthUrls
import OidcGatekeeper.Observed
import OidcGatekeeper.ClientSecret
import OidcGatekeeper.Status
import OidcGatekeeper.Reconcile
import OidcGatekeeper.ErrorPaths
import OidcGatekeeper.CaAgreement
import OidcGatekeeper.CaBundle
import OidcGatekeeper.Registration
import OidcGatekeeper.Serving
import OidcGatekeeper.Secrecy
import OidcGatekeeper.JsonValues
import OidcGatekeeper.Codecs
import OidcGatekeeper.LogForwarder
import OidcGatekeeper.MeshLabels
import OidcGatekeeper.ServiceMesh
import OidcGatekeeper.ForwardAuthRequirer
import OidcGatekeeper.Gateway
import OidcGatekeeper.IstioIngressRoute
import OidcGatekeeper.IstioIngressAddress
import OidcGatekeeper.KubernetesServicePatch
import OidcGatekeeper.ServiceRuns
import OidcGatekeeper.MeshJoin
import OidcGatekeeper.DexProvider
import OidcGatekeeper.IstioPolicies
import OidcGatekeeper.MeshEnforcement
