import P2pa.Mdns.Behaviour

/-!
# The names of a service

`behaviours/mdns_bhv/config.rs`.  The names are built by `Config::service_name`; the
names without the last dot are written into packets, those with it are compared with
what the DNS library prints.
-/

namespace P2pa.Mdns

open Utils Wire

/-- `Config` with the fields the interface tasks read besides. -/
structure ServiceConfig extends Config where
  serviceName : Bytes
  serviceNameFqdn : String
  metaQueryService : Bytes
  metaQueryServiceFqdn : String
deriving DecidableEq, Repr

namespace ServiceConfig

def default : ServiceConfig where
  ttl := .fromSecs 300
  queryInterval := .fromSecs 3
  probeInterval := .fromSecs 2
  ipv6 := false
  serviceName := []
  serviceNameFqdn := ""
  metaQueryService := []
  metaQueryServiceFqdn := ""

/-- The name as the first labels of a domain name. -/
def firstLabels (name : String) : String := if name ≠ "" then "_" ++ name ++ "." else ""

def withServiceName (config : ServiceConfig) (serviceName : String) : ServiceConfig :=
  let name := firstLabels serviceName
  { config with
    serviceName := bytes (name ++ "_p2p._udp.local")
    serviceNameFqdn := name ++ "_p2p._udp.local."
    metaQueryService := bytes (name ++ "_services._dns-sd._udp.local")
    metaQueryServiceFqdn := name ++ "_services._dns-sd._udp.local." }

end ServiceConfig

end P2pa.Mdns
