import Mathlib.Data.List.Sort
import NextInfra.Aliyun.Connector
import NextInfra.Cloudflare.Mapper
import NextInfra.Dokploy.Mapper
import NextInfra.GitHub.Mapper
import NextInfra.Normalizer.Normalize
import NextInfra.Ssh.Mapper
import NextInfra.Supabase.Managed
import NextInfra.Tencent.Connector

/-!
# The desktop's normalizers

What each of the seven normalizers lets through. A `Normalizer` carries the proof
that its tables are valid, which is what the source's `expect("static … schemas are
valid")` claims.
-/

namespace NextInfra

/-- `prov_schema`, `github_schema` and their siblings. -/
def provSchema (kind : String) (fields : List String)
    (h : IsNamespaced kind.toList := by decide +kernel) : AttributeSchema where
  kind := ⟨kind, h⟩
  schemaVersion := .one
  allowedAttributes := fields.insertionSort (· ≤ ·)

/-- `prov_relation`, `github_relation` and their siblings. -/
def provRelation (kind source target : String)
    (h : IsNamespaced kind.toList := by decide +kernel)
    (hs : IsNamespaced source.toList := by decide +kernel)
    (ht : IsNamespaced target.toList := by decide +kernel) : RelationSchema where
  kind := ⟨kind, h⟩
  sourceKind := ⟨source, hs⟩
  targetKind := ⟨target, ht⟩

def attributeTable (schemas : List AttributeSchema) : KeyedTable AttributeSchema.key :=
  schemas.foldl KeyedTable.put KeyedTable.empty

def githubNormalizer : Normalizer where
  attributeSchemas := attributeTable
    [provSchema "github.repository"
        ["repository_id", "visibility", "default_branch", "archived", "disabled", "created_at",
          "updated_at"] GitHub.repositoryKind.namespaced,
      provSchema "github.workflow" ["workflow_id", "path", "state", "created_at", "updated_at"]
        GitHub.workflowKind.namespaced,
      provSchema "github.workflow_run"
        ["run_id", "workflow_id", "run_number", "status", "conclusion", "created_at"]
        GitHub.runKind.namespaced]
  relationSchemas :=
    [provRelation "github.contains" "github.repository" "github.workflow"
        GitHub.containsKind.namespaced GitHub.repositoryKind.namespaced
        GitHub.workflowKind.namespaced,
      provRelation "github.executes" "github.workflow" "github.workflow_run"
        GitHub.executesKind.namespaced GitHub.workflowKind.namespaced GitHub.runKind.namespaced]
  pathsAllowed := by decide +kernel
  relationsDistinct := by decide +kernel

def sshNormalizer : Normalizer where
  attributeSchemas := attributeTable
    [provSchema "ssh.host" ["platform", "architecture", "uptime_bucket", "host_identity"]
        Ssh.hostKind.namespaced,
      provSchema "ssh.filesystem" ["entries", "total", "host_identity"]
        Ssh.filesystemKind.namespaced,
      provSchema "ssh.process-summary" ["total", "states", "host_identity"]
        Ssh.processKind.namespaced,
      provSchema "ssh.launchd-service"
        ["service_label", "loaded", "pid_present", "last_exit_status", "host_identity"]
        Ssh.launchdKind.namespaced,
      provSchema "ssh.systemd-service"
        ["unit", "load_state", "active_state", "sub_state", "host_identity"]
        Ssh.systemdKind.namespaced]
  relationSchemas :=
    [provRelation "ssh.contains" "ssh.host" "ssh.filesystem"
        Ssh.containsKind.namespaced Ssh.hostKind.namespaced Ssh.filesystemKind.namespaced,
      provRelation "ssh.contains" "ssh.host" "ssh.process-summary"
        Ssh.containsKind.namespaced Ssh.hostKind.namespaced Ssh.processKind.namespaced,
      provRelation "ssh.contains" "ssh.host" "ssh.launchd-service"
        Ssh.containsKind.namespaced Ssh.hostKind.namespaced Ssh.launchdKind.namespaced,
      provRelation "ssh.contains" "ssh.host" "ssh.systemd-service"
        Ssh.containsKind.namespaced Ssh.hostKind.namespaced Ssh.systemdKind.namespaced]
  pathsAllowed := by decide +kernel
  relationsDistinct := by decide +kernel

def dokployNormalizer : Normalizer where
  attributeSchemas := attributeTable
    [provSchema "dokploy.project" ["description"] Dokploy.project_named,
      provSchema "dokploy.application" ["project_id", "server_id", "environment_id"]
        Dokploy.application_named,
      provSchema "dokploy.deployment" ["application_id", "status", "created_at", "title"]
        Dokploy.deployment_named,
      provSchema "dokploy.server" ["address", "description", "status"] Dokploy.server_named,
      provSchema "dokploy.domain" ["application_id", "https", "path"] Dokploy.domain_named]
  relationSchemas :=
    [provRelation "dokploy.contains" "dokploy.project" "dokploy.application"
        Dokploy.containsKind.namespaced Dokploy.project_named Dokploy.application_named,
      provRelation "dokploy.runs_on" "dokploy.application" "dokploy.server"
        Dokploy.runsOnKind.namespaced Dokploy.application_named Dokploy.server_named,
      provRelation "dokploy.deploys" "dokploy.application" "dokploy.deployment"
        Dokploy.deploysKind.namespaced Dokploy.application_named Dokploy.deployment_named,
      provRelation "dokploy.exposes" "dokploy.application" "dokploy.domain"
        Dokploy.exposesKind.namespaced Dokploy.application_named Dokploy.domain_named]
  pathsAllowed := by decide +kernel
  relationsDistinct := by decide +kernel

def cloudflareNormalizer : Normalizer where
  attributeSchemas := attributeTable
    [provSchema "cloudflare.account" [] Cloudflare.account_named,
      provSchema "cloudflare.zone" ["account_id", "status"] Cloudflare.zone_named,
      provSchema "cloudflare.dns_record" ["zone_id", "type", "content", "proxied"]
        Cloudflare.record_named,
      provSchema "cloudflare.tunnel" ["account_id", "status"] Cloudflare.tunnel_named,
      provSchema "cloudflare.worker" ["account_id", "modified_on"] Cloudflare.worker_named]
  relationSchemas :=
    [provRelation "cloudflare.contains" "cloudflare.account" "cloudflare.zone"
        Cloudflare.containsKind.namespaced Cloudflare.account_named Cloudflare.zone_named,
      provRelation "cloudflare.contains" "cloudflare.account" "cloudflare.tunnel"
        Cloudflare.containsKind.namespaced Cloudflare.account_named Cloudflare.tunnel_named,
      provRelation "cloudflare.contains" "cloudflare.account" "cloudflare.worker"
        Cloudflare.containsKind.namespaced Cloudflare.account_named Cloudflare.worker_named,
      provRelation "cloudflare.contains" "cloudflare.zone" "cloudflare.dns_record"
        Cloudflare.containsKind.namespaced Cloudflare.zone_named Cloudflare.record_named]
  pathsAllowed := by decide +kernel
  relationsDistinct := by decide +kernel

def supabaseManagedNormalizer : Normalizer where
  attributeSchemas := attributeTable
    [provSchema "supabase.managed.organization" [] Supabase.organizationKind.namespaced,
      provSchema "supabase.managed.project" ["organization_id", "region", "status"]
        Supabase.projectKind.namespaced]
  relationSchemas :=
    [provRelation "supabase.contains" "supabase.managed.organization" "supabase.managed.project"
        Supabase.containsKind.namespaced Supabase.organizationKind.namespaced
        Supabase.projectKind.namespaced]
  pathsAllowed := by decide +kernel
  relationsDistinct := by decide +kernel

/-- What the two cloud providers tell about each kind of resource. -/
def regionalFields : List String := ["region", "status", "parent_id"]

def aliyunNormalizer : Normalizer where
  attributeSchemas := attributeTable
    [provSchema "aliyun.ecs.instance" regionalFields Aliyun.instance_named,
      provSchema "aliyun.vpc.vpc" regionalFields Aliyun.vpc_named,
      provSchema "aliyun.vpc.vswitch" regionalFields Aliyun.vswitch_named,
      provSchema "aliyun.vpc.security_group" regionalFields Aliyun.securityGroup_named,
      provSchema "aliyun.slb.load_balancer" regionalFields Aliyun.loadBalancer_named,
      provSchema "aliyun.dns.record" regionalFields Aliyun.record_named,
      provSchema "aliyun.ecs.public_ip" regionalFields Aliyun.publicIp_named]
  relationSchemas :=
    [provRelation "aliyun.contains" "aliyun.vpc.vpc" "aliyun.vpc.vswitch"
        Aliyun.contains_named Aliyun.vpc_named Aliyun.vswitch_named,
      provRelation "aliyun.contains" "aliyun.vpc.vpc" "aliyun.vpc.security_group"
        Aliyun.contains_named Aliyun.vpc_named Aliyun.securityGroup_named,
      provRelation "aliyun.assigned" "aliyun.ecs.instance" "aliyun.ecs.public_ip"
        Aliyun.assigned_named Aliyun.instance_named Aliyun.publicIp_named]
  pathsAllowed := by decide +kernel
  relationsDistinct := by decide +kernel

def tencentNormalizer : Normalizer where
  attributeSchemas := attributeTable
    [provSchema "tencent.cvm.instance" regionalFields Tencent.instance_named,
      provSchema "tencent.vpc.vpc" regionalFields Tencent.vpc_named,
      provSchema "tencent.vpc.subnet" regionalFields Tencent.subnet_named,
      provSchema "tencent.vpc.security_group" regionalFields Tencent.securityGroup_named,
      provSchema "tencent.clb.load_balancer" regionalFields Tencent.loadBalancer_named,
      provSchema "tencent.dns.record" regionalFields Tencent.record_named,
      provSchema "tencent.cvm.public_ip" regionalFields Tencent.publicIp_named]
  relationSchemas :=
    [provRelation "tencent.contains" "tencent.vpc.vpc" "tencent.vpc.subnet"
        Tencent.contains_named Tencent.vpc_named Tencent.subnet_named,
      provRelation "tencent.contains" "tencent.vpc.vpc" "tencent.vpc.security_group"
        Tencent.contains_named Tencent.vpc_named Tencent.securityGroup_named,
      provRelation "tencent.assigned" "tencent.cvm.instance" "tencent.cvm.public_ip"
        Tencent.assigned_named Tencent.instance_named Tencent.publicIp_named]
  pathsAllowed := by decide +kernel
  relationsDistinct := by decide +kernel

end NextInfra
