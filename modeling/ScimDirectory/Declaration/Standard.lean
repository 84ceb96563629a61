import ScimDirectory.Declaration.Basic

/-!
# The standard resource types

The declarations that a directory has from the start: users, groups and FIDO devices, with the
backend names of their attributes.
-/

namespace ScimDirectory.Standard

/-- People: the `name` attribute is stored natively, one backend attribute a part. -/
def user : ResourceDeclaration where
  name := "User"
  schema := "urn:ietf:params:scim:schemas:core:2.0:User"
  description := "User Account"
  endpoint := "/Users"
  nameAttribute := some "name"
  identifier := "inum"
  attributes := [
    { path := "id", storageName := some "inum", description := "Unique identifier for the User" },
    { path := "externalId", storageName := some "oxTrustExternalId" },
    { path := "userName", storageName := some "uid",
      description := "Unique identifier for the User, typically used to authenticate" },
    { path := "name", type := .complex, description := "The components of the user's real name" },
    { path := "name.formatted", storageName := some "oxTrustNameFormatted" },
    { path := "name.familyName", storageName := some "sn" },
    { path := "name.givenName" },
    { path := "name.middleName" },
    { path := "name.honorificPrefix", storageName := some "oxTrusthonorificPrefix" },
    { path := "name.honorificSuffix", storageName := some "oxTrusthonorificSuffix" },
    { path := "displayName" },
    { path := "nickName", storageName := some "nickname" },
    { path := "profileUrl", storageName := some "oxTrustProfileURL", type := .reference },
    { path := "title", storageName := some "oxTrustTitle" },
    { path := "userType", storageName := some "oxTrustUserType" },
    { path := "preferredLanguage" },
    { path := "locale" },
    { path := "timezone", storageName := some "zoneinfo" },
    { path := "active", storageName := some "oxTrustActive", type := .boolean },
    { path := "emails", storageName := some "oxTrustEmail", type := .complex, multiValued := true },
    { path := "emails.value" },
    { path := "emails.display" },
    { path := "emails.type" },
    { path := "emails.primary", type := .boolean },
    { path := "phoneNumbers", storageName := some "oxTrustPhoneValue", type := .complex,
      multiValued := true },
    { path := "phoneNumbers.value" },
    { path := "phoneNumbers.display" },
    { path := "phoneNumbers.type" },
    { path := "phoneNumbers.primary", type := .boolean },
    { path := "ims", storageName := some "oxTrustImsValue", type := .complex, multiValued := true },
    { path := "ims.value" },
    { path := "ims.display" },
    { path := "ims.type" },
    { path := "ims.primary", type := .boolean },
    { path := "photos", storageName := some "oxTrustPhotos", type := .complex,
      multiValued := true },
    { path := "photos.value", type := .reference },
    { path := "photos.display" },
    { path := "photos.type" },
    { path := "photos.primary", type := .boolean },
    { path := "addresses", storageName := some "oxTrustAddresses", type := .complex,
      multiValued := true },
    { path := "addresses.formatted" },
    { path := "addresses.streetAddress" },
    { path := "addresses.locality" },
    { path := "addresses.region" },
    { path := "addresses.postalCode" },
    { path := "addresses.country" },
    { path := "addresses.type" },
    { path := "addresses.primary", type := .boolean },
    { path := "groups", storageName := some "memberOf", type := .complex, multiValued := true },
    { path := "groups.value" },
    { path := "groups.$ref", type := .reference },
    { path := "groups.display" },
    { path := "groups.type" },
    { path := "entitlements", storageName := some "oxTrustEntitlements", type := .complex,
      multiValued := true },
    { path := "entitlements.value" },
    { path := "entitlements.display" },
    { path := "entitlements.type" },
    { path := "entitlements.primary", type := .boolean },
    { path := "roles", storageName := some "oxTrustRole", type := .complex, multiValued := true },
    { path := "roles.value" },
    { path := "roles.display" },
    { path := "roles.type" },
    { path := "roles.primary", type := .boolean },
    { path := "x509Certificates", storageName := some "oxTrustx509Certificate", type := .complex,
      multiValued := true },
    { path := "x509Certificates.value", type := .binary },
    { path := "x509Certificates.display" },
    { path := "x509Certificates.type" },
    { path := "x509Certificates.primary", type := .boolean } ]
  extensions := [
    { urn := "urn:ietf:params:scim:schemas:extension:enterprise:2.0:User"
      name := "EnterpriseUser"
      description := "Enterprise User"
      fields := [
        { name := "employeeNumber" },
        { name := "costCenter", storageName := some "oxTrustCostCenter" },
        { name := "organization", storageName := some "o" },
        { name := "division", storageName := some "oxTrustDivision" },
        { name := "department", storageName := some "departmentNumber" } ] },
    { urn := "urn:ietf:params:scim:schemas:extension:gluu:2.0:User"
      name := "GluuUserCustomExtension"
      description := "Gluu User Custom Extension"
      fields := [
        { name := "scimCustomFirst" },
        { name := "scimCustomSecond", type := .dateTime, multiValued := true },
        { name := "scimCustomThird", type := .decimal } ] } ]

/-- Groups: the members are stored as serialized fragments under the carrier `member`. -/
def group : ResourceDeclaration where
  name := "Group"
  schema := "urn:ietf:params:scim:schemas:core:2.0:Group"
  description := "Group"
  endpoint := "/Groups"
  identifier := "inum"
  attributes := [
    { path := "id", storageName := some "inum", description := "Unique identifier for the Group" },
    { path := "externalId", storageName := some "oxTrustExternalId" },
    { path := "displayName", storageName := some "cn",
      description := "A human-readable name for the Group" },
    { path := "members", storageName := some "member", type := .complex, multiValued := true,
      description := "A list of members of the Group" },
    { path := "members.value", description := "Identifier of the member of this Group" },
    { path := "members.$ref", type := .reference },
    { path := "members.display" },
    { path := "members.type",
      description := "A label indicating the type of resource, e.g. 'User' or 'Group'" } ]

/-- Registered FIDO devices: plain attributes only. -/
def fidoDevice : ResourceDeclaration where
  name := "FidoDevice"
  schema := "urn:ietf:params:scim:schemas:core:2.0:FidoDevice"
  description := "Fido Device"
  endpoint := "/FidoDevices"
  identifier := "oxId"
  attributes := [
    { path := "id", storageName := some "oxId" },
    { path := "userId", storageName := some "personInum" },
    { path := "creationDate", type := .dateTime },
    { path := "application", storageName := some "oxApplication" },
    { path := "counter", storageName := some "oxCounter" },
    { path := "deviceData", storageName := some "oxDeviceData" },
    { path := "deviceHashCode", storageName := some "oxDeviceHashCode" },
    { path := "deviceKeyHandle", storageName := some "oxDeviceKeyHandle" },
    { path := "deviceRegistrationConf", storageName := some "oxDeviceRegistrationConf" },
    { path := "lastAccessTime", storageName := some "oxLastAccessTime", type := .dateTime },
    { path := "status", storageName := some "oxStatus" },
    { path := "displayName" },
    { path := "description" },
    { path := "nickname", storageName := some "oxNickName" } ]

/-- The standard declarations, in the order in which they are registered. -/
def declarations : List ResourceDeclaration :=
  [user, group, fidoDevice]

end ScimDirectory.Standard
